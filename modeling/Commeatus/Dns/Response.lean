import Commeatus.Dns.Aliases

/-!
What an accepted response says.

A response is accepted only with the expected header and question; the records
of its answer section lie one after the other behind the question. Every
address of the answer is the data of one of them, and the queried name owns it.
-/

namespace Commeatus.Dns

open Commeatus.Lib Commeatus.Core

variable {message : Bytes} {offset fields : Nat} {record : ResourceRecord}
    {records : List ResourceRecord}
  {query : DnsQuery} {recordType : AddressRecordType} {expectedId : UInt16}

/-! ### The answer section -/

/-- The record as it stands in the message: its owner from the offset on, its fields behind that. -/
structure RecordAt (message : Bytes) (offset fields : Nat) (record : ResourceRecord) : Prop where
  owner : decodeName message offset = .ok (record.owner, fields)
  rrType : readU16 message fields = .ok record.rrType
  cls : readU16 message (fields + 2) = .ok record.cls
  ttl : ∃ seconds, takeU32 message (fields + 4) = .ok (seconds, fields + 8) ∧
    record.ttl = fromSecs seconds
  start : record.start = fields + 10
  length : ∃ rdlength : UInt16, readU16 message (fields + 8) = .ok rdlength ∧
    record.stop = record.start + rdlength.toNat
  inside : record.stop ≤ message.length

/-- Records that lie one after the other from the offset on. -/
inductive Section (message : Bytes) : Nat → List ResourceRecord → Prop where
  | nil (offset : Nat) : Section message offset []
  | cons {offset fields : Nat} {record : ResourceRecord} {records : List ResourceRecord}
      (here : RecordAt message offset fields record) (rest : Section message record.stop records) :
      Section message offset (record :: records)

theorem takeU16_eq_ok {value : UInt16} {behind : Nat}
    (read : takeU16 message offset = .ok (value, behind)) :
    readU16 message offset = .ok value ∧ behind = offset + 2 := by
  obtain ⟨value', first, rest⟩ := bind_eq_ok_iff.mp read
  cases rest
  exact ⟨first, rfl⟩

theorem takeU32_eq_ok {value behind : Nat} (read : takeU32 message offset = .ok (value, behind)) :
    behind = offset + 4 := by
  unfold takeU32 at read
  split at read
  · cases read
    rfl
  · cases read

theorem parseRecord_eq_ok {behind : Nat}
    (parsed : parseRecord message offset = .ok (record, behind)) :
    ∃ fields, RecordAt message offset fields record ∧ behind = record.stop := by
  obtain ⟨⟨owner, fields⟩, named, parsed⟩ := bind_eq_ok_iff.mp parsed
  obtain ⟨⟨rrType, offset₁⟩, typed, parsed⟩ := bind_eq_ok_iff.mp parsed
  obtain ⟨⟨cls, offset₂⟩, classed, parsed⟩ := bind_eq_ok_iff.mp parsed
  obtain ⟨⟨seconds, offset₃⟩, lived, parsed⟩ := bind_eq_ok_iff.mp parsed
  obtain ⟨⟨rdlength, offset₄⟩, measured, parsed⟩ := bind_eq_ok_iff.mp parsed
  obtain ⟨inside, parsed⟩ := refuse_bind_eq_ok_iff.mp parsed
  cases parsed
  obtain ⟨typeRead, rfl⟩ := takeU16_eq_ok typed
  obtain ⟨classRead, rfl⟩ := takeU16_eq_ok classed
  obtain rfl := takeU32_eq_ok lived
  obtain ⟨lengthRead, rfl⟩ := takeU16_eq_ok measured
  exact ⟨fields, ⟨named, typeRead, classRead, ⟨seconds, lived, rfl⟩, rfl,
    ⟨rdlength, lengthRead, rfl⟩, Nat.le_of_not_lt inside⟩, rfl⟩

theorem parseRecords_section {count : Nat}
    (parsed : parseRecords message count offset = .ok records) :
    Section message offset records ∧ records.length = count := by
  induction count generalizing offset records with
  | zero =>
      cases parsed
      exact ⟨.nil offset, rfl⟩
  | succ count ih =>
      obtain ⟨⟨record, behind⟩, first, parsed⟩ := bind_eq_ok_iff.mp parsed
      obtain ⟨later, rest, parsed⟩ := bind_eq_ok_iff.mp parsed
      cases parsed
      obtain ⟨fields, here, rfl⟩ := parseRecord_eq_ok first
      obtain ⟨listed, counted⟩ := ih rest
      exact ⟨.cons here listed, by rw [List.length_cons, counted]⟩

/-- The header and the question are as expected, and the records are those of the answer section. -/
structure Accepted (expectedId : UInt16) (query : DnsQuery)
    (recordType : AddressRecordType) (message : Bytes)
    (records : List ResourceRecord) : Prop where
  size : dnsHeaderBytes ≤ message.length ∧ message.length ≤ maxDnsMessageBytes
  id : readU16 message 0 = .ok expectedId
  flags : ∃ flags, readU16 message 2 = .ok flags ∧ flags &&& flagQr ≠ 0 ∧ flags &&& flagTc = 0 ∧
    flags &&& rcodeMask = 0
  oneQuestion : readU16 message 4 = .ok 1
  counted : ∃ count : UInt16, readU16 message 6 = .ok count ∧ records.length = count.toNat
  few : records.length ≤ maxDnsAnswerRecords
  question : ∃ fields, decodeName message dnsHeaderBytes = .ok (query.name, fields) ∧
    readU16 message fields = .ok recordType.code ∧ readU16 message (fields + 2) = .ok classIn ∧
    Section message (fields + 4) records

theorem checkRcode_eq_ok {flags : UInt16} {u : Unit} (passed : checkRcode flags query = .ok u) :
    flags &&& rcodeMask = 0 := by
  unfold checkRcode at passed
  dsimp only at passed
  split at passed
  · assumption
  · split at passed <;> cases passed

theorem parseAnswerRecords_accepted
    (parsed : parseAnswerRecords expectedId query recordType message = .ok records) :
    Accepted expectedId query recordType message records := by
  obtain ⟨size, parsed⟩ := refuse_bind_eq_ok_iff.mp parsed
  obtain ⟨id, identified, parsed⟩ := bind_eq_ok_iff.mp parsed
  obtain ⟨same, parsed⟩ := refuse_bind_eq_ok_iff.mp parsed
  obtain ⟨flags, flagged, parsed⟩ := bind_eq_ok_iff.mp parsed
  obtain ⟨response, parsed⟩ := refuse_bind_eq_ok_iff.mp parsed
  obtain ⟨whole, parsed⟩ := refuse_bind_eq_ok_iff.mp parsed
  obtain ⟨u, coded, parsed⟩ := bind_eq_ok_iff.mp parsed
  obtain ⟨questions, questioned, parsed⟩ := bind_eq_ok_iff.mp parsed
  obtain ⟨count, counted, parsed⟩ := bind_eq_ok_iff.mp parsed
  obtain ⟨one, parsed⟩ := refuse_bind_eq_ok_iff.mp parsed
  obtain ⟨few, parsed⟩ := refuse_bind_eq_ok_iff.mp parsed
  obtain ⟨⟨name, fields⟩, named, parsed⟩ := bind_eq_ok_iff.mp parsed
  obtain ⟨asked, parsed⟩ := refuse_bind_eq_ok_iff.mp parsed
  obtain ⟨⟨questionType, offset₁⟩, typed, parsed⟩ := bind_eq_ok_iff.mp parsed
  obtain ⟨⟨questionClass, offset₂⟩, classed, parsed⟩ := bind_eq_ok_iff.mp parsed
  obtain ⟨matched, laid⟩ := refuse_bind_eq_ok_iff.mp parsed
  push Not at size same whole one asked matched
  subst same one asked
  obtain ⟨typeRead, rfl⟩ := takeU16_eq_ok typed
  obtain ⟨classRead, rfl⟩ := takeU16_eq_ok classed
  obtain ⟨rfl, rfl⟩ := matched
  obtain ⟨listed, length⟩ := parseRecords_section laid
  exact {
    size := size
    id := identified
    flags := ⟨flags, flagged, response, whole, checkRcode_eq_ok coded⟩
    oneQuestion := questioned
    counted := ⟨count, counted, length⟩
    few := by omega
    question := ⟨fields, named, typeRead, classRead, listed⟩
  }

/-! ### The addresses -/

/-- The octets that the record's range has in the message. -/
def rdata (message : Bytes) (record : ResourceRecord) : Bytes :=
  (message.drop record.start).take (record.stop - record.start)

/-- The octets are those of the address, which is of the requested family: four octets for A,
sixteen for AAAA. -/
def Spelled (recordType : AddressRecordType) (octets : Bytes) : IpAddr → Prop
  | .v4 ip => recordType = .a ∧ octets = ip.octets
  | .v6 ip => recordType = .aaaa ∧ octets = ip.octets

theorem recordAddress_spelled {x : IpAddr} (inside : record.stop ≤ message.length)
    (held : recordAddress recordType message record = .ok x) :
    Spelled recordType (rdata message record) x := by
  have length : (rdata message record).length = record.stop - record.start := by
    rw [rdata, List.length_take, List.length_drop]
    omega
  cases recordType with
  | a =>
      obtain ⟨four, held⟩ := refuse_bind_eq_ok_iff.mp held
      cases held
      exact ⟨rfl, (Ipv4Addr.octets_ofOctets (length.trans (not_not.mp four))).symm⟩
  | aaaa =>
      obtain ⟨sixteen, held⟩ := refuse_bind_eq_ok_iff.mp held
      cases held
      exact ⟨rfl, (Ipv6Addr.octets_ofOctets (length.trans (not_not.mp sixteen))).symm⟩

/-- The data of the records of a section are ranges of the message. -/
theorem Section.ranges (listed : Section message offset records) :
    ∀ record ∈ records, record.start ≤ record.stop ∧
    record.stop ≤ message.length := by
  induction listed with
  | nil => exact fun _ no => absurd no List.not_mem_nil
  | cons here rest ih =>
      intro record member
      rcases List.mem_cons.mp member with rfl | later
      · obtain ⟨rdlength, -, length⟩ := here.length
        exact ⟨by omega, here.inside⟩
      · exact ih record later

/-- Every address of an accepted answer is the data of an answer record whose owner alias records
lead to from the queried name; and the lifetime of the answer is at most that of every such record,
and of every alias on the way to it. -/
theorem answer_owned_by_query {answer : DnsAnswer}
    (parsed : parseAddressResponse expectedId query recordType message = .ok answer) :
    ∃ records, Accepted expectedId query recordType message records ∧
      (∀ x ∈ answer.addresses, ∃ chain record,
        Source query recordType message records chain record x ∧
        Spelled recordType (rdata message record) x) ∧
      answer.addresses ≠ [] ∧ answer.addresses.Nodup ∧ answer.addresses.length ≤
        maxResolvedAddresses ∧
      ∃ ttl, answer.ttl = some ttl ∧ ∀ chain record x,
        Source query recordType message records chain record x →
        ttl ≤ record.ttl ∧ ∀ r ∈ chain, ttl ≤ r.ttl := by
  obtain ⟨records, answered, resolved⟩ := bind_eq_ok_iff.mp parsed
  have accepted := parseAnswerRecords_accepted answered
  obtain ⟨_, -, -, -, listed⟩ := accepted.question
  obtain ⟨sources, within⟩ := resolveAddressesThroughAliases_sources resolved
  refine ⟨records, accepted, fun x member => ?_, answer.nonempty,
    answer.distinct, answer.bounded, ?_⟩
  · obtain ⟨chain, record, source⟩ := sources x member
    exact ⟨chain, record, source,
      recordAddress_spelled (listed.ranges record source.member).2 source.address⟩
  · -- Some address has a source, so the lifetime is known.
    obtain ⟨x, member⟩ := List.exists_mem_of_ne_nil _ answer.nonempty
    obtain ⟨chain, record, source⟩ := sources x member
    obtain ⟨⟨ttl, known, -⟩, -⟩ := within chain record x source
    refine ⟨ttl, known, fun chain record x source => ?_⟩
    have bounded : ∀ bound, Within answer.ttl bound → ttl ≤ bound := by
      rintro bound ⟨value, known', small⟩
      cases known.symm.trans known'
      exact small
    obtain ⟨own, aliases⟩ := within chain record x source
    exact ⟨bounded _ own, fun r chained => bounded _ (aliases r chained)⟩

/-- A response to a query for `a.b`: an alias to `c.b` that lives 30 seconds, and its address that
lives 20. -/
def sampleResponse : Bytes :=
  [0x12, 0x34, 0x81, 0x80, 0, 1, 0, 2, 0, 0, 0, 0] ++
    [1, 97, 1, 98, 0, 0, 1, 0, 1] ++
    [0xc0, 12, 0, 5, 0, 1, 0, 0, 0, 30, 0, 4, 1, 99, 0xc0, 14] ++
    [0xc0, 33, 0, 1, 0, 1, 0, 0, 0, 20, 0, 4, 192, 0, 2, 1]

theorem answer_owned_by_query_example :
    ∃ answer records chain record ttl,
      parseAddressResponse 0x1234 ⟨"a.b".toList, by decide⟩ .a sampleResponse = .ok answer ∧
        answer.addresses = [.v4 ⟨192, 0, 2, 1⟩] ∧
        Accepted 0x1234 ⟨"a.b".toList, by decide⟩ .a sampleResponse records ∧
        Source ⟨"a.b".toList, by decide⟩ .a sampleResponse records chain record
          (.v4 ⟨192, 0, 2, 1⟩) ∧
        Spelled .a (rdata sampleResponse record) (.v4 ⟨192, 0, 2, 1⟩) ∧
        answer.addresses.length ≤ maxResolvedAddresses ∧ answer.ttl = some ttl ∧ ttl ≤ record.ttl ∧
        ∀ r ∈ chain, ttl ≤ r.ttl := by
  have read : (parseAddressResponse 0x1234 ⟨"a.b".toList, by decide⟩ .a sampleResponse).toOption.map
    DnsAnswer.addresses =
      some [.v4 ⟨192, 0, 2, 1⟩] := by decide +kernel
  obtain ⟨answer, parsed, addresses⟩ := exists_ok_of_map read
  obtain ⟨records, accepted, sources, -, -, few, ttl, known, within⟩ := answer_owned_by_query parsed
  obtain ⟨chain, record, source, spelled⟩ :=
    sources (.v4 ⟨192, 0, 2, 1⟩) (by rw [addresses]; exact List.mem_singleton_self _)
  obtain ⟨own, aliases⟩ := within chain record _ source
  exact ⟨answer, records, chain, record, ttl, parsed, addresses, accepted, source, spelled,
    few, known, own, aliases⟩

end Commeatus.Dns
