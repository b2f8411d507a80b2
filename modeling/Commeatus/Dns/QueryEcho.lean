import Commeatus.Dns.WireBounds
import Commeatus.Dns.WireNames

/-!
The encoder of queries and the parser of responses agree.

Every query is encoded, and the decoder reads its name back, up to the type
field. So a response that repeats the question gets past header and question,
and its records are read where they lie.
-/

namespace Commeatus.Dns

open Commeatus.Lib Commeatus.Core

variable {message : Bytes} {offset : Nat} {query : DnsQuery} {recordType : AddressRecordType}

/-! ### The query -/

/-- Short ASCII labels are encoded, and stand on the wire as they were. -/
theorem encodeLabels_eq_ok {labels : List Str}
    (short : ∀ label ∈ labels, isAscii label = true ∧ label ≠ [] ∧ byteLen label ≤ 63) :
    ∃ wire, encodeLabels labels = .ok wire ∧ wire.length = spread labels ∧
      ∀ front rest, NameAt (front ++ (wire ++ 0 :: rest)) front.length 0 labels
        (front.length + wire.length + 1) := by
  induction labels with
  | nil => exact ⟨[], rfl, rfl, fun front rest => .root (by simp)⟩
  | cons label labels ih =>
      obtain ⟨wire, encoded, size, named⟩ :=
        ih fun l later => short l (List.mem_cons_of_mem _ later)
      obtain ⟨ascii, nonempty, small⟩ := short label List.mem_cons_self
      have positive : byteLen label ≠ 0 := fun none => nonempty (byteLen_eq_zero.mp none)
      have octet : (UInt8.ofNat (byteLen label)).toNat = byteLen label := by
        rw [UInt8.toNat_ofNat']
        omega
      refine ⟨UInt8.ofNat (byteLen label) :: utf8 label ++ wire, ?_, ?_, fun front rest => ?_⟩
      · rw [encodeLabels, refuse_of_not (by omega), ok_bind, refuse_of_not (by omega),
          ok_bind, encoded]
        rfl
      · rw [List.cons_append, List.length_cons, List.length_append, size, spread_cons, byteLen]
        omega
      · have later := named (front ++ UInt8.ofNat (byteLen label) :: utf8 label) rest
        have whole : front ++ (UInt8.ofNat (byteLen label) :: utf8 label ++ wire ++ 0 :: rest) =
            (front ++ UInt8.ofNat (byteLen label) :: utf8 label) ++ (wire ++ 0 :: rest) := by simp
        have behind : (front ++ UInt8.ofNat (byteLen label) :: utf8 label).length = front.length +
            1 + byteLen label := by
          rw [List.length_append, List.length_cons, byteLen]
          omega
        have total : (UInt8.ofNat (byteLen label) :: utf8 label ++ wire).length =
            1 + byteLen label + wire.length := by
          rw [List.cons_append, List.length_cons, List.length_append, byteLen]
          omega
        rw [behind] at later
        rw [whole, total]
        have read :
          ((front ++ UInt8.ofNat (byteLen label) :: utf8 label) ++
            (wire ++ 0 :: rest))[front.length]? =
            some (UInt8.ofNat (byteLen label)) := by simp
        refine .label read (by omega) (by omega) ?_ ?_ ascii ?_
        · rw [List.length_append, behind]
          omega
        · rw [octet, List.append_assoc, List.drop_append, List.drop_of_length_le (by omega)]
          simp [byteLen]
        · rw [octet]
          convert later using 1
          omega

/-- The labels of a query's name are short, in ASCII and in lowercase. -/
theorem DnsQuery.labels (query : DnsQuery) :
    (∀ label ∈ query.name.splitOn '.', isAscii label = true ∧ label ≠ [] ∧ byteLen label ≤ 63) ∧
      folded (query.name.splitOn '.') = query.name.splitOn '.' ∧ byteLen query.name ≤ 253 := by
  have normal := query.normal
  unfold normalizeName at normal
  dsimp only at normal
  split at normal
  · cases normal
  rename_i valid
  have lower : toAsciiLowercase (trimMatches '.' query.name) = query.name := by injection normal
  rw [lower] at valid
  simp only [Bool.or_eq_true, List.isEmpty_iff, decide_eq_true_eq, Bool.not_eq_true', not_or,
    not_lt, Bool.not_eq_false] at valid
  obtain ⟨⟨⟨-, short⟩, ascii⟩, sized⟩ := valid
  refine ⟨fun label member => ?_, ?_, short⟩
  · have size := List.all_eq_true.mp sized label member
    simp only [Bool.and_eq_true, Bool.not_eq_true', List.isEmpty_eq_false_iff,
      decide_eq_true_eq] at size
    exact ⟨isAscii_iff.mpr fun c inLabel =>
      isAscii_iff.mp ascii c (mem_of_mem_splitOn member inLabel), size⟩
  · have dot : '.'.toLower = '.' := by decide
    have free : DotFree (query.name.splitOn '.') :=
      fun label member => not_mem_of_mem_splitOn member
    have whole : ['.'].intercalate (query.name.splitOn '.') = query.name :=
      List.intercalate_splitOn _
    have same : ['.'].intercalate (folded (query.name.splitOn '.')) = query.name := by
      rw [folded, ← toAsciiLowercase_intercalate dot, whole]
      calc toAsciiLowercase query.name =
        toAsciiLowercase (toAsciiLowercase (trimMatches '.' query.name)) := by rw [lower]
        _ = query.name := by rw [toAsciiLowercase_idem, lower]
    have split := List.splitOn_intercalate '.' (folded_dotFree_iff.mpr free) (by simp [folded])
    rw [same] at split
    exact split.symm

theorem readU16_of_drop {value : UInt16} {rest : Bytes}
    (here : message.drop offset = toBeBytes value ++ rest) :
    readU16 message offset = .ok value := by
  have size := congrArg List.length here
  have first := byteAt_drop message offset 0
  have second := byteAt_drop message offset 1
  rw [here] at first second
  rw [Nat.add_zero] at first
  simp only [List.length_drop, List.length_append, toBeBytes, List.length_cons,
    List.length_nil] at size
  unfold readU16
  rw [if_pos (by omega), ← first, ← second]
  simp [toBeBytes, byteAt]

/-- The header of a query. -/
def queryHeader (id : UInt16) : Bytes :=
  toBeBytes id ++ toBeBytes flagRd ++ toBeBytes 1 ++ toBeBytes 0 ++ toBeBytes 0 ++ toBeBytes 0

/-- Every query is encoded: the header, its name, the type and the class. -/
theorem encodeAddressQuery_eq_ok (id : UInt16) (query : DnsQuery)
    (recordType : AddressRecordType) : ∃ name : Bytes,
    encodeAddressQuery id query recordType =
      .ok (queryHeader id ++ (name ++ (toBeBytes recordType.code ++ toBeBytes classIn))) ∧
    ∀ front rest, HostNameAt (front ++ (name ++ rest)) front.length query.name
      (front.length + name.length) := by
  obtain ⟨short, lower, small⟩ := query.labels
  obtain ⟨wire, encoded, size, named⟩ := encodeLabels_eq_ok short
  have free : DotFree (query.name.splitOn '.') := fun label member => not_mem_of_mem_splitOn member
  have nonempty : query.name.splitOn '.' ≠ [] := List.splitOn_ne_nil _ _
  have whole : ['.'].intercalate (query.name.splitOn '.') = query.name := List.intercalate_splitOn _
  have bytes := byteLen_joined free nonempty
  rw [lower, whole] at bytes
  refine ⟨wire ++ [0], ?_,
    fun front rest => ⟨⟨0, _, ?_, Nat.zero_le _, nonempty, free, by rw [lower, whole]⟩, small⟩⟩
  · have fits : ¬ maxDnsMessageBytes < (queryHeader id ++ wire ++ [0]).length := by
      simp only [maxDnsMessageBytes, queryHeader, toBeBytes, List.length_append,
        List.length_cons, List.length_nil]
      omega
    have name : encodeName query.name (queryHeader id) = .ok (queryHeader id ++ wire ++ [0]) :=
      bind_eq_ok_iff.mpr ⟨wire, encoded, refuse_bind_eq_ok_iff.mpr ⟨fits, rfl⟩⟩
    have request : encodeAddressQuery id query recordType =
        .ok (queryHeader id ++ wire ++ [0] ++ toBeBytes recordType.code ++ toBeBytes classIn) :=
      bind_eq_ok_iff.mpr ⟨_, name, rfl⟩
    rw [request]
    simp only [List.append_assoc]
  · have at_ := named front rest
    rw [List.length_append, List.length_singleton, ← Nat.add_assoc]
    simpa using at_

/-! ### The answer section -/

/-- A record as it was laid out: its owner, which takes some octets that may be pointers, its fields
and its data. -/
structure LaidRecord where
  owner : Str
  ownerLength : Nat
  rrType : UInt16
  cls : UInt16
  ttl : UInt32
  rdata : Bytes
  short : rdata.length ≤ 65535

namespace LaidRecord

/-- The octets behind the owner. -/
def fields (r : LaidRecord) : Bytes :=
  toBeBytes r.rrType ++ toBeBytes r.cls ++ toBeBytes (UInt16.ofNat (r.ttl.toNat / 65536)) ++
    toBeBytes (UInt16.ofNat (r.ttl.toNat % 65536)) ++
      toBeBytes (UInt16.ofNat r.rdata.length) ++ r.rdata

/-- The record lies at the offset: a host name of the owner's length, and the fields behind it. -/
structure At (r : LaidRecord) (message : Bytes) (offset : Nat) : Prop where
  owner : HostNameAt message offset r.owner (offset + r.ownerLength)
  fields : r.fields <+: message.drop (offset + r.ownerLength)

def size (r : LaidRecord) : Nat := r.ownerLength + 10 + r.rdata.length

/-- The record with its range in the message. -/
def placed (r : LaidRecord) (offset : Nat) : ResourceRecord where
  owner := r.owner
  rrType := r.rrType
  cls := r.cls
  ttl := fromSecs r.ttl.toNat
  start := offset + r.ownerLength + 10
  stop := offset + r.size

end LaidRecord

/-- The records lie one after the other. -/
def Laid (message : Bytes) : Nat → List LaidRecord → Prop
  | _, [] => True
  | offset, r :: rs => r.At message offset ∧ Laid message (offset + r.size) rs

/-- The records with their ranges. -/
def placedFrom : Nat → List LaidRecord → List ResourceRecord
  | _, [] => []
  | offset, r :: rs => r.placed offset :: placedFrom (offset + r.size) rs

theorem takeU16_of_drop {value : UInt16} {rest : Bytes}
    (here : message.drop offset = toBeBytes value ++ rest) :
    takeU16 message offset = .ok (value, offset + 2) := by
  unfold takeU16
  rw [readU16_of_drop here]
  rfl

theorem drop_behind {value : UInt16} {rest : Bytes}
    (here : message.drop offset = toBeBytes value ++ rest) :
    message.drop (offset + 2) = rest := by
  rw [← List.drop_drop, here]
  rfl

/-- A number of four octets is its two halves. -/
theorem takeU32_of_halves {high low : UInt16} (first : readU16 message offset = .ok high)
    (second : readU16 message (offset + 2) = .ok low) :
    takeU32 message offset = .ok (high.toNat * 65536 + low.toNat, offset + 4) := by
  have inside := readU16_inside second
  unfold readU16 at first second
  rw [if_pos (by omega)] at first second
  cases first
  cases second
  unfold takeU32
  rw [if_pos (by omega)]

theorem parseRecord_of_laid {r : LaidRecord} (laid : r.At message offset) :
    parseRecord message offset = .ok (r.placed offset, offset + r.size) := by
  obtain ⟨rest, split⟩ := laid.fields
  simp only [LaidRecord.fields, List.append_assoc] at split
  have typed := split.symm
  have classed := drop_behind typed
  have high := drop_behind classed
  have low := drop_behind high
  have measured := drop_behind low
  have stands := congrArg List.length (drop_behind measured)
  have short := r.short
  have small := r.ttl.toNat_lt
  have length : (UInt16.ofNat r.rdata.length).toNat = r.rdata.length := by
    rw [UInt16.toNat_ofNat']
    omega
  have seconds : (UInt16.ofNat (r.ttl.toNat / 65536)).toNat * 65536 +
      (UInt16.ofNat (r.ttl.toNat % 65536)).toNat = r.ttl.toNat := by
    rw [UInt16.toNat_ofNat', UInt16.toNat_ofNat']
    omega
  have lived := takeU32_of_halves (readU16_of_drop high) (readU16_of_drop low)
  rw [seconds] at lived
  have fields := readU16_inside (readU16_of_drop measured)
  have inside : ¬ message.length < offset + r.ownerLength + 2 + 2 + 4 + 2 + r.rdata.length := by
    simp only [List.length_drop, List.length_append] at stands
    omega
  unfold parseRecord
  rw [decodeName_of_hostNameAt laid.owner, ok_bind]
  dsimp only
  rw [takeU16_of_drop typed, ok_bind]
  dsimp only
  rw [takeU16_of_drop classed, ok_bind]
  dsimp only
  rw [lived, ok_bind]
  dsimp only
  rw [takeU16_of_drop measured, ok_bind]
  dsimp only
  rw [length, refuse_of_not inside, ok_bind]
  have start : offset + r.ownerLength + 2 + 2 + 4 + 2 = offset + r.ownerLength + 10 := by omega
  have stop : offset + r.ownerLength + 10 + r.rdata.length = offset + r.size := by
    simp only [LaidRecord.size]
    omega
  rw [start, stop]
  rfl

theorem parseRecords_of_laid {records : List LaidRecord} (laid : Laid message offset records) :
    parseRecords message records.length offset = .ok (placedFrom offset records) := by
  induction records generalizing offset with
  | nil => rfl
  | cons r rs ih =>
      obtain ⟨here, later⟩ := laid
      rw [List.length_cons, parseRecords, parseRecord_of_laid here, ok_bind]
      dsimp only
      rw [ih later]
      rfl

/-- The range of a record has its data. -/
theorem rdata_placed {r : LaidRecord} (laid : r.At message offset) :
    rdata message (r.placed offset) = r.rdata := by
  obtain ⟨rest, split⟩ := laid.fields
  simp only [LaidRecord.fields, List.append_assoc] at split
  have behind := drop_behind (drop_behind (drop_behind (drop_behind (drop_behind split.symm))))
  have start : offset + r.ownerLength + 2 + 2 + 2 + 2 + 2 = offset + r.ownerLength + 10 := by omega
  have length : offset + r.size - (offset + r.ownerLength + 10) = r.rdata.length := by
    simp only [LaidRecord.size]
    omega
  rw [start] at behind
  simp only [rdata, LaidRecord.placed, length, behind, List.take_left]

theorem rdata_placedFrom {records : List LaidRecord} (laid : Laid message offset records) :
    (placedFrom offset records).map (rdata message) = records.map LaidRecord.rdata := by
  induction records generalizing offset with
  | nil => rfl
  | cons r rs ih =>
      obtain ⟨here, later⟩ := laid
      rw [placedFrom, List.map_cons, List.map_cons, rdata_placed here, ih later]

/-! ### The response -/

/-- A response that repeats the question of the request: its header has the id, the response flag,
no error code and the counts of one question and of the records; the question is that of the
request, and the records follow. -/
structure Echoes (id flags count : UInt16) (request : Bytes) (records : List LaidRecord)
    (response : Bytes) : Prop where
  header : toBeBytes id ++ toBeBytes flags ++ toBeBytes 1 ++ toBeBytes count <+: response
  question : request.drop dnsHeaderBytes <+: response.drop dnsHeaderBytes
  isResponse : flags &&& flagQr ≠ 0
  succeeded : flags &&& rcodeMask = 0
  counted : records.length = count.toNat
  few : records.length ≤ maxDnsAnswerRecords
  laid : Laid response request.length records

theorem parseAnswerRecords_of_echoes {id flags count : UInt16} {request response : Bytes}
    {records : List LaidRecord}
    (encoded : encodeAddressQuery id query recordType = .ok request)
    (echoes : Echoes id flags count request records response)
    (whole : flags &&& flagTc = 0) (small : response.length ≤ maxDnsMessageBytes) :
    parseAnswerRecords id query recordType response = .ok (placedFrom request.length records) := by
  obtain ⟨name, encoded', host⟩ := encodeAddressQuery_eq_ok id query recordType
  cases encoded.symm.trans encoded'
  obtain ⟨tail, header⟩ := echoes.header
  obtain ⟨more, question⟩ := echoes.question
  have twelve : (queryHeader id).length = dnsHeaderBytes := rfl
  rw [List.drop_left' twelve] at question
  simp only [List.append_assoc] at header question
  -- The four numbers of the header.
  have atId : response.drop 0 = toBeBytes id ++ _ := header.symm
  have atFlags := drop_behind atId
  have atQuestions := drop_behind atFlags
  have atCount := drop_behind atQuestions
  -- The question stands where the query has it.
  have long : dnsHeaderBytes + name.length + 4 ≤ response.length := by
    have size := congrArg List.length question
    simp only [List.length_append, List.length_drop, toBeBytes, List.length_cons,
      List.length_nil] at size
    omega
  have front : (response.take dnsHeaderBytes).length = dnsHeaderBytes := by
    rw [List.length_take]
    omega
  have split : response.take dnsHeaderBytes ++
      (name ++ (toBeBytes recordType.code ++ (toBeBytes classIn ++ more))) = response := by
    rw [question, List.take_append_drop]
  have named :=
    host (response.take dnsHeaderBytes) (toBeBytes recordType.code ++ (toBeBytes classIn ++ more))
  rw [split, front] at named
  have typed : response.drop (dnsHeaderBytes + name.length) = toBeBytes recordType.code ++
      (toBeBytes classIn ++ more) := by
    rw [← List.drop_drop, ← question, List.drop_left]
  have classed := drop_behind typed
  have behind :
    (queryHeader id ++ (name ++ (toBeBytes recordType.code ++ toBeBytes classIn))).length =
      dnsHeaderBytes + name.length + 2 + 2 := by
    simp only [List.length_append, twelve, toBeBytes, List.length_cons, List.length_nil]
    omega
  have laid := echoes.laid
  rw [behind] at laid ⊢
  have parsed := parseRecords_of_laid laid
  rw [echoes.counted] at parsed
  have few := echoes.few
  rw [echoes.counted] at few
  unfold parseAnswerRecords
  rw [refuse_of_not (by omega), ok_bind, readU16_of_drop atId, ok_bind,
    refuse_of_not (by simp), ok_bind,
    readU16_of_drop atFlags, ok_bind, refuse_of_not echoes.isResponse, ok_bind,
      refuse_of_not (by simpa using whole), ok_bind]
  have coded : checkRcode flags query = .ok () := by
    unfold checkRcode
    exact if_pos echoes.succeeded
  rw [coded, ok_bind, readU16_of_drop atQuestions, ok_bind, readU16_of_drop atCount, ok_bind,
    refuse_of_not (by simp), ok_bind,
    refuse_of_not (by omega), ok_bind, decodeName_of_hostNameAt named, ok_bind]
  dsimp only
  rw [refuse_of_not (by simp), ok_bind, takeU16_of_drop typed, ok_bind]
  dsimp only
  rw [takeU16_of_drop classed, ok_bind]
  dsimp only
  rw [refuse_of_not (by simp), ok_bind, parsed]

/-- The name of a query is read back from the encoded query, up to the type field. -/
theorem decodeName_query {request : Bytes} {id : UInt16}
    (encoded : encodeAddressQuery id query recordType = .ok request) :
    ∃ fields, decodeName request dnsHeaderBytes = .ok (query.name, fields) ∧
      readU16 request fields = .ok recordType.code ∧
      readU16 request (fields + 2) = .ok classIn ∧ request.length = fields + 4 := by
  obtain ⟨name, encoded', host⟩ := encodeAddressQuery_eq_ok id query recordType
  cases encoded.symm.trans encoded'
  have twelve : (queryHeader id).length = dnsHeaderBytes := rfl
  have typed : (queryHeader id ++ (name ++ (toBeBytes recordType.code ++ toBeBytes classIn))).drop
    (dnsHeaderBytes + name.length) =
      toBeBytes recordType.code ++ toBeBytes classIn := by
    rw [← List.drop_drop, List.drop_left' twelve, List.drop_left]
  have classed := drop_behind typed
  rw [← List.append_nil (toBeBytes classIn)] at classed
  refine ⟨dnsHeaderBytes + name.length, ?_, readU16_of_drop typed, readU16_of_drop classed, ?_⟩
  · have named :=
      decodeName_of_hostNameAt
        (host (queryHeader id) (toBeBytes recordType.code ++ toBeBytes classIn))
    rwa [twelve] at named
  · simp only [List.length_append, twelve, toBeBytes, List.length_cons, List.length_nil]
    omega

/-- Every name that makes a query is encoded and read back. A response that repeats the question of
the query, is not cut off and fits a message gets past header and question, and its records are read
where they lie. -/
theorem query_and_response_agree {text : Str} {query : DnsQuery}
    (made : DnsQuery.new text = .ok query) (id : UInt16)
    (recordType : AddressRecordType) :
    ∃ request fields, encodeAddressQuery id query recordType = .ok request ∧
      normalizeName text = .ok query.name ∧
      decodeName request dnsHeaderBytes = .ok (query.name, fields) ∧ readU16 request fields =
        .ok recordType.code ∧
      readU16 request (fields + 2) = .ok classIn ∧ request.length = fields + 4 ∧
      ∀ flags count records response, Echoes id flags count request records response →
        flags &&& flagTc = 0 →
        response.length ≤ maxDnsMessageBytes →
        parseAnswerRecords id query recordType response = .ok (placedFrom request.length records) ∧
          (placedFrom request.length records).map (rdata response) = records.map LaidRecord.rdata ∧
          parseAddressResponse id query recordType response =
            resolveAddressesThroughAliases query recordType response
              (placedFrom request.length records) := by
  obtain ⟨name, encoded, -⟩ := encodeAddressQuery_eq_ok id query recordType
  obtain ⟨fields, named, typed, classed, behind⟩ := decodeName_query encoded
  refine ⟨_, fields, encoded, DnsQuery.new_eq_ok made, named, typed, classed, behind, ?_⟩
  intro flags count records response echoes whole small
  have parsed := parseAnswerRecords_of_echoes encoded echoes whole small
  refine ⟨parsed, rdata_placedFrom echoes.laid, ?_⟩
  unfold parseAddressResponse
  rw [parsed, ok_bind]

/-- The query for the address of `a.b`. -/
def sampleRequest : Bytes :=
  [0x12, 0x34, 1, 0, 0, 1, 0, 0, 0, 0, 0, 0] ++ [1, 97, 1, 98, 0, 0, 1, 0, 1]

/-- A response with one address, whose owner is a pointer to the question. -/
def echoResponse : Bytes :=
  [0x12, 0x34, 0x81, 0x80, 0, 1, 0, 1, 0, 0, 0, 0] ++ [1, 97, 1, 98, 0, 0, 1, 0, 1] ++
    [0xc0, 12, 0, 1, 0, 1, 0, 0, 0, 20, 0, 4, 192, 0, 2, 1]

theorem query_and_response_agree_example : ∃ query, DnsQuery.new "A.b.".toList = .ok query ∧
    encodeAddressQuery 0x1234 query .a = .ok sampleRequest ∧
    parseAnswerRecords 0x1234 query .a echoResponse =
      .ok [⟨"a.b".toList, 1, 1, fromSecs 20, 33, 37⟩] := by
  have made : DnsQuery.new "A.b.".toList = .ok ⟨"a.b".toList, by decide⟩ := by decide +kernel
  have encoded : encodeAddressQuery 0x1234 ⟨"a.b".toList, by decide⟩ .a = .ok sampleRequest := by
    decide +kernel
  obtain ⟨request, fields, encoded', -, -, -, -, -, agrees⟩ :=
    query_and_response_agree made 0x1234 .a
  cases encoded.symm.trans encoded'
  have second : NameAt echoResponse 14 0 ["b".toList] 17 :=
    @NameAt.label _ _ _ _ 1 _ _ (by decide) (by decide) (by decide) (by decide) (by decide +kernel)
      (by decide) (.root (by decide))
  have first : NameAt echoResponse 12 0 ["a".toList, "b".toList] 17 :=
    @NameAt.label _ _ _ _ 1 _ _ (by decide) (by decide) (by decide) (by decide)
      (by decide +kernel) (by decide) second
  have owner : NameAt echoResponse 21 1 ["a".toList, "b".toList] 23 :=
    @NameAt.pointer _ _ _ _ 0xc0 12 _ (by decide) (by decide) (by decide) (by decide) first
  have free : DotFree ["a".toList, "b".toList] := by
    intro label member
    simp only [List.mem_cons, List.not_mem_nil, or_false] at member
    rcases member with rfl | rfl <;> decide
  have echoes :
      Echoes 0x1234 0x8180 1 sampleRequest [⟨"a.b".toList, 2, 1, 1, 20, [192, 0, 2, 1], by decide⟩]
          echoResponse := by
    refine ⟨by decide, by decide, by
      decide, by decide, rfl, by decide,
        ⟨⟨⟨1, _, owner, by decide, by simp, free, by decide⟩, by decide⟩, ?_⟩, trivial⟩
    decide
  obtain ⟨parsed, -⟩ := agrees _ _ _ _ echoes (by decide) (by decide)
  exact ⟨_, made, encoded, parsed⟩

/-- A response to the query for `a.b` that is marked as cut off. -/
def cutOffResponse : Bytes :=
  [0x12, 0x34, 0x83, 0x80, 0, 1, 0, 0, 0, 0, 0, 0] ++ [1, 97, 1, 98, 0, 0, 1, 0, 1]

/-- A response that repeats the question, without an error code and with all of its records, fails
on its header when it is marked as cut off. -/
theorem cut_off_response_fails :
    encodeAddressQuery 0x1234 ⟨"a.b".toList, by decide⟩ .a = .ok sampleRequest ∧
    Echoes 0x1234 0x8380 0 sampleRequest [] cutOffResponse ∧
    parseAddressResponse 0x1234 ⟨"a.b".toList, by decide⟩ .a cutOffResponse =
      .error ⟨.resolverFailure, "DNS response is truncated"⟩ := by
  refine ⟨by decide +kernel,
    ⟨by decide, by decide, by decide, by decide, rfl, by decide, trivial⟩, by decide +kernel⟩

end Commeatus.Dns
