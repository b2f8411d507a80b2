import Commeatus.Dns.Response
import Commeatus.Lib.Checked

/-!
The parser of DNS messages with its accesses (`dns/src/wire.rs`).

The functions of the parser once more, this time with the accesses to the
message as the code makes them: `get` where it asks first, an index or a slice
where it does not, and sums in machine words. They settle, on every message, on
the results of the functions without the accesses. So no access leaves the
message, and the loop of the name decoder ends.
-/

namespace Commeatus.Dns

open Commeatus.Lib Commeatus.Core

namespace Access

open Checked

def readU16 (message : Bytes) (offset : Nat) : Checked DnsError UInt16 := do
  let stop ← sum offset 2
  let bytes ← ofExcept (okOr (getRange message offset stop)
    (invalidResponse "DNS message is truncated"))
  return fromBeBytes (← index bytes 0) (← index bytes 1)

def takeU16 (message : Bytes) (offset : Nat) : Checked DnsError (UInt16 × Nat) := do
  let value ← readU16 message offset
  return (value, ← sum offset 2)

def takeU32 (message : Bytes) (offset : Nat) : Checked DnsError (Nat × Nat) := do
  let stop ← sum offset 4
  let bytes ← ofExcept (okOr (getRange message offset stop)
    (invalidResponse "DNS message is truncated"))
  let offset ← sum offset 4
  let high := fromBeBytes (← index bytes 0) (← index bytes 1)
  let low := fromBeBytes (← index bytes 2) (← index bytes 3)
  return (high.toNat * 65536 + low.toNat, offset)

/-- Where reading goes on behind the name: behind its first pointer. -/
def resumeBehind (s : NameState) : Checked DnsError Nat :=
  match s.resume with
  | some resume => return resume
  | none => sum s.cursor 2

/-- The round of the loop in `decode_name` that follows a pointer. -/
def followPointer (message : Bytes) (s : NameState) (length : UInt8) :
    Checked DnsError (NameState ⊕ (List Str × Nat)) := do
  let next ← sum s.cursor 1
  let second ← ofExcept (okOr message[next]?
    (invalidResponse "DNS compression pointer is truncated"))
  let pointer := (length &&& 0x3f).toNat * 256 + second.toNat
  ofExcept (refuse (message.length ≤ pointer)
    (invalidResponse "DNS compression pointer is out of bounds"))
  ofExcept (refuse (s.cursor ≤ pointer)
    (invalidResponse "DNS compression pointer does not point backward"))
  let resume ← resumeBehind s
  let hops ← sum s.hops 1
  ofExcept (refuse (maxDnsNamePointerHops < hops)
    (invalidResponse "DNS compression pointer chain exceeds the bound"))
  return .inl { s with cursor := pointer, resume := some resume, hops := hops }

/-- The round that ends the name or reads a label. -/
def readLabel (message : Bytes) (s : NameState) (length : UInt8) :
    Checked DnsError (NameState ⊕ (List Str × Nat)) := do
  let cursor ← sum s.cursor 1
  if length = 0 then return .inr (s.labels, s.resume.getD cursor)
  else do
    ofExcept (refuse (63 < length.toNat) (invalidResponse "DNS label exceeds 63 bytes"))
    let stop ← ofExcept (okOr ((checkedAdd cursor length.toNat).filter (· ≤ message.length))
      (invalidResponse "DNS label is truncated"))
    let bytes ← range message cursor stop
    let label ← ofExcept (okOr (fromUtf8 bytes)
      (invalidResponse "DNS response name is not UTF-8/ASCII"))
    ofExcept (refuse (!isAscii label) (invalidResponse "DNS response name is not ASCII"))
    let added ← sum length.toNat (if s.labels.isEmpty then 0 else 1)
    let decodedBytes ← ofExcept
      (okOr (checkedAdd s.decodedBytes added) (invalidResponse "DNS decoded name length overflow"))
    ofExcept (refuse (253 < decodedBytes) (invalidResponse "DNS decoded name exceeds 253 bytes"))
    return .inl { s with
      cursor := stop, labels := s.labels ++ [toAsciiLowercase label], decodedBytes := decodedBytes }

/-- One round of the loop in `decode_name`. -/
def nameRound (message : Bytes) (s : NameState) :
    Checked DnsError (NameState ⊕ (List Str × Nat)) := do
  let length ← ofExcept (okOr message[s.cursor]? (invalidResponse "DNS name is truncated"))
  if length &&& 0xc0 = 0xc0 then followPointer message s length
  else do
    ofExcept (refuse (length &&& 0xc0 ≠ 0)
      (invalidResponse "DNS name uses an unsupported label encoding"))
    readLabel message s length

variable (rounds : Nat)

def decodeName (message : Bytes) (offset : Nat) : Checked DnsError (Str × Nat) := do
  let (labels, offset) ← repeatFor (nameRound message) rounds { cursor := offset }
  ofExcept (refuse (labels = []) (invalidResponse "DNS response contains an empty root name"))
  match normalizeName (['.'].intercalate labels) with
  | .ok name => return (name, offset)
  | .error _ => ofExcept (.error (invalidResponse "DNS response contains an invalid hostname"))

def parseRecord (message : Bytes) (offset : Nat) : Checked DnsError (ResourceRecord × Nat) := do
  let (owner, offset) ← decodeName rounds message offset
  let (rrType, offset) ← takeU16 message offset
  let (cls, offset) ← takeU16 message offset
  let (ttl, offset) ← takeU32 message offset
  let (rdlength, offset) ← takeU16 message offset
  let stop ← ofExcept (okOr ((checkedAdd offset rdlength.toNat).filter (· ≤ message.length))
    (invalidResponse "DNS resource record data is truncated"))
  return (⟨owner, rrType, cls, fromSecs ttl, offset, stop⟩, stop)

def parseRecords (message : Bytes) : Nat → Nat → Checked DnsError (List ResourceRecord)
  | 0, _ => return []
  | count + 1, offset => do
      let (record, offset) ← parseRecord rounds message offset
      let records ← parseRecords message count offset
      return record :: records

def aliasTarget (message : Bytes) (record : ResourceRecord) : Checked DnsError Str := do
  let (target, offset) ← decodeName rounds message record.start
  ofExcept (refuse (offset ≠ record.stop)
    (invalidResponse "DNS CNAME record has trailing or malformed data"))
  return target

def followAliases (message : Bytes) : List ResourceRecord → AliasState → Checked DnsError AliasState
  | [], s => return s
  | record :: records, s =>
      if record.cls ≠ classIn ∨ record.rrType ≠ typeCname ∨ record.owner ∉ s.acceptedNames then
        followAliases message records s
      else do
        let target ← aliasTarget rounds message record
        followAliases message records
          { acceptedNames := insert target s.acceptedNames
            chainTtl := some (minTtl s.chainTtl record.ttl)
            changed := s.changed || decide (target ∉ s.acceptedNames) }

def acceptNames (message : Bytes) (records : List ResourceRecord) : Nat → AliasState →
    Checked DnsError AliasState
  | 0, s => return s
  | hops + 1, s => do
      let s ← followAliases rounds message records { s with changed := false }
      if !s.changed then return s
      else do
        ofExcept (refuse (maxDnsAliasHops + 1 < s.acceptedNames.card)
          (invalidResponse "DNS CNAME chain exceeds the configured bound"))
        acceptNames message records hops s

/-- The address of a record: four octets one by one, or sixteen as a slice. -/
def recordAddress (recordType : AddressRecordType) (message : Bytes) (record : ResourceRecord) :
    Checked DnsError IpAddr :=
  match recordType with
  | .a => do
      ofExcept (refuse (record.stop - record.start ≠ 4)
        (invalidResponse "DNS A record has invalid RDLENGTH"))
      let a ← index message record.start
      let b ← index message (← sum record.start 1)
      let c ← index message (← sum record.start 2)
      let d ← index message (← sum record.start 3)
      return .v4 ⟨a, b, c, d⟩
  | .aaaa => do
      ofExcept (refuse (record.stop - record.start ≠ 16)
        (invalidResponse "DNS AAAA record has invalid RDLENGTH"))
      let octets ← range message record.start record.stop
      ofExcept (refuse (octets.length ≠ 16)
        (invalidResponse "DNS AAAA record length conversion failed"))
      return .v6 (.ofOctets octets)

def collectAddresses (recordType : AddressRecordType) (message : Bytes)
    (acceptedNames : Finset Str) :
    List ResourceRecord → List IpAddr × Option Nat → Checked DnsError (List IpAddr × Option Nat)
  | [], state => return state
  | record :: records, (addresses, ttl) =>
      if record.cls ≠ classIn ∨ record.rrType ≠ recordType.code ∨ record.owner ∉ acceptedNames then
        collectAddresses recordType message acceptedNames records (addresses, ttl)
      else do
        let address ← recordAddress recordType message record
        collectAddresses recordType message acceptedNames records (pushNew addresses address,
          some (minTtl ttl record.ttl))

def resolveAddressesThroughAliases (query : DnsQuery)
    (recordType : AddressRecordType) (message : Bytes)
    (records : List ResourceRecord) : Checked DnsError DnsAnswer := do
  let s ← acceptNames rounds message records maxDnsAliasHops { acceptedNames := {query.name} }
  let (addresses, ttl) ← collectAddresses recordType message s.acceptedNames
    records ([], s.chainTtl)
  ofExcept (DnsAnswer.new addresses ttl)

def parseAnswerRecords (expectedId : UInt16) (query : DnsQuery)
    (recordType : AddressRecordType) (message : Bytes) :
    Checked DnsError (List ResourceRecord) := do
  ofExcept (refuse (message.length < dnsHeaderBytes ∨ maxDnsMessageBytes < message.length)
    (invalidResponse "DNS response size is outside the supported bounds"))
  let id ← readU16 message 0
  ofExcept (refuse (id ≠ expectedId)
    (invalidResponse "DNS response transaction ID does not match query"))
  let flags ← readU16 message 2
  ofExcept (refuse (flags &&& flagQr = 0)
    (invalidResponse "DNS response is missing the response flag"))
  ofExcept (refuse (flags &&& flagTc ≠ 0) ⟨.resolverFailure, "DNS response is truncated"⟩)
  ofExcept (checkRcode flags query)
  let questionCount ← readU16 message 4
  let answerCount ← readU16 message 6
  ofExcept (refuse (questionCount ≠ 1)
    (invalidResponse "DNS response must contain exactly one question"))
  ofExcept (refuse (maxDnsAnswerRecords < answerCount.toNat)
    (invalidResponse "DNS response answer count exceeds the configured bound"))
  let (questionName, offset) ← decodeName rounds message dnsHeaderBytes
  ofExcept (refuse (questionName ≠ query.name)
    (invalidResponse "DNS response question name does not match query"))
  let (questionType, offset) ← takeU16 message offset
  let (questionClass, offset) ← takeU16 message offset
  ofExcept (refuse (questionType ≠ recordType.code ∨ questionClass ≠ classIn)
    (invalidResponse "DNS response question type/class does not match query"))
  parseRecords rounds message answerCount.toNat offset

def parseAddressResponse (expectedId : UInt16) (query : DnsQuery)
    (recordType : AddressRecordType) (message : Bytes) :
    Checked DnsError DnsAnswer := do
  let records ← parseAnswerRecords rounds expectedId query recordType message
  resolveAddressesThroughAliases rounds query recordType message records

end Access

end Commeatus.Dns
