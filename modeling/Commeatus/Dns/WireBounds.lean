import Commeatus.Dns.WireAccess

/-!
No access of the parser leaves the message.

A position that was read up to lies in the message, and the range of a record
ends there. With that every access settles. The loop of the name decoder ends
because a label adds to the bounded length of the name and a pointer to the
bounded number of hops.
-/

namespace Commeatus.Dns

open Commeatus.Lib Commeatus.Core

variable {message : Bytes} {offset behind : Nat} {name : Str} {record : ResourceRecord}
    {records : List ResourceRecord}
  {query : DnsQuery} {recordType : AddressRecordType} {expectedId : UInt16}

/-! ### Positions -/

theorem readU16_inside {value : UInt16} (read : readU16 message offset = .ok value) :
    offset + 2 ≤ message.length := by
  unfold readU16 at read
  split at read
  · assumption
  · cases read

theorem takeU32_inside {value : Nat} (read : takeU32 message offset = .ok (value, behind)) :
    behind ≤ message.length := by
  unfold takeU32 at read
  split at read
  · cases read
    assumption
  · cases read

/-- What the decoder has read of a name that starts at the offset: it has gone forward until it
followed a pointer, and knows where reading goes on since. -/
def Ahead (message : Bytes) (start : Nat) (s : NameState) : Prop :=
  match s.resume with
  | none => start ≤ s.cursor
  | some resume => start < resume ∧ resume ≤ message.length

theorem Ahead.resume {start : Nat} {s : NameState} (ahead : Ahead message start s) {here : Nat}
    (after : s.cursor < here)
    (inside : here ≤ message.length) : start < s.resume.getD here ∧
    s.resume.getD here ≤ message.length := by
  unfold Ahead at ahead
  cases known : s.resume with
  | none =>
      rw [known] at ahead
      exact ⟨by simp only [Option.getD_none]; omega, inside⟩
  | some resume =>
      rw [known] at ahead
      exact ahead

theorem getElem?_inside {index : Nat} {b : UInt8} (found : message[index]? = some b) :
    index < message.length :=
  (List.getElem?_eq_some_iff.mp found).1

theorem decodeLabels_behind {start : Nat} {labels : List Str} {s : NameState}
    (decoded : decodeLabels message s = .ok (labels, behind)) (ahead : Ahead message start s) :
    start < behind ∧ behind ≤ message.length := by
  fun_induction decodeLabels message s with
  | case6 s high read mark low follows pointer inside backward few ih =>
      exact ih decoded (ahead.resume (by omega) (getElem?_inside follows))
  | case8 s read =>
      cases decoded
      exact ahead.resume (by omega) (getElem?_inside read)
  | case14 s length read unmarked plain nonzero short inside label octets ascii few ih =>
      refine ih decoded ?_
      unfold Ahead at ahead ⊢
      dsimp only
      cases known : s.resume with
      | none =>
          rw [known] at ahead
          dsimp only at ahead ⊢
          omega
      | some resume =>
          rw [known] at ahead
          exact ahead
  | _ => cases decoded

/-- A decoded name ends behind its start, and within the message. -/
theorem decodeName_behind (decoded : decodeName message offset = .ok (name, behind)) :
    offset < behind ∧ behind ≤ message.length := by
  obtain ⟨⟨labels, resume⟩, read, rest⟩ := bind_eq_ok_iff.mp decoded
  obtain ⟨-, rest⟩ := refuse_bind_eq_ok_iff.mp rest
  have ahead : Ahead message offset { cursor := offset } := Nat.le_refl offset
  have bounds := decodeLabels_behind read ahead
  split at rest
  · cases rest
    exact bounds
  · cases rest

/-! ### The accesses -/

namespace Access

open Checked

variable (addressable : message.length ≤ isizeMax)
include addressable

/-- An offset in the message, and some more, are in the machine word. -/
theorem settles_offset (inside : offset ≤ message.length) {more : Nat} (few : more ≤ 65535) :
    Settles (sum offset more : Checked DnsError Nat) (.ok (offset + more)) := by
  refine settles_sum ?_
  simp only [usizeMax, isizeMax] at *
  omega

omit addressable in
/-- The octets of a range that was asked for. -/
theorem getRange_octet {count index : Nat} (inside : offset + count ≤ message.length)
    (within : index < count) :
    ((message.drop offset).take count)[index]? = some (byteAt message (offset + index)) := by
  have present : offset + index < message.length := by omega
  rw [List.getElem?_take_of_lt within, List.getElem?_drop, byteAt, List.getD_eq_getElem?_getD,
    List.getElem?_eq_getElem present]
  rfl

omit addressable in
/-- What `get` gives for the octets from the offset on. -/
theorem getRange_from (message : Bytes) (offset count : Nat) :
    getRange message offset (offset + count) =
    if offset + count ≤ message.length then some ((message.drop offset).take count) else none := by
  unfold getRange
  by_cases inside : offset + count ≤ message.length
  · rw [if_pos ⟨by omega, inside⟩, if_pos inside, Nat.add_sub_cancel_left]
  · rw [if_neg (fun both => inside both.2), if_neg inside]

theorem settles_readU16 (inside : offset ≤ message.length) :
    Settles (readU16 message offset) (Dns.readU16 message offset) := by
  unfold readU16 Dns.readU16
  refine (settles_offset addressable inside (by decide)).step ?_
  rw [getRange_from]
  split
  · rename_i room
    refine (settles_ofExcept _).step ?_
    refine (settles_index (getRange_octet room (by decide))).step ?_
    exact (settles_index (getRange_octet room (by decide))).step rfl
  · rfl

theorem settles_takeU16 (inside : offset ≤ message.length) :
    Settles (takeU16 message offset) (Dns.takeU16 message offset) :=
  (settles_readU16 addressable inside).bind fun _ _ =>
    (settles_offset addressable inside (by decide)).step rfl

theorem settles_takeU32 (inside : offset ≤ message.length) :
    Settles (takeU32 message offset) (Dns.takeU32 message offset) := by
  unfold takeU32 Dns.takeU32
  refine (settles_offset addressable inside (by decide)).step ?_
  rw [getRange_from]
  split
  · rename_i room
    refine (settles_ofExcept _).step ((settles_offset addressable inside (by decide)).step ?_)
    refine (settles_index (getRange_octet room (by decide))).step ?_
    refine (settles_index (getRange_octet room (by decide))).step ?_
    refine (settles_index (getRange_octet room (by decide))).step ?_
    exact (settles_index (getRange_octet room (by decide))).step rfl
  · rfl

omit addressable in
/-- An end that was computed with care, and is refused when it lies behind the message. -/
theorem settles_end {α : Type} {count : Nat} (small : offset + count ≤ usizeMax) {e : DnsError}
    {f : Nat → Checked DnsError α}
    {result : Except DnsError α}
    (next : offset + count ≤ message.length → Settles (f (offset + count)) result) :
    Settles (ofExcept (okOr ((checkedAdd offset count).filter (· ≤ message.length)) e) >>= f)
      (refuse (message.length < offset + count) e >>= fun _ => result) := by
  unfold checkedAdd
  rw [if_pos small]
  by_cases inside : offset + count ≤ message.length
  · rw [refuse_of_not (by omega), Option.filter_some, if_pos (by simpa using inside)]
    exact next inside
  · rw [refuse_of (by omega), Option.filter_some, if_neg (by simpa using inside)]
    rfl

/-! ### The loop of the name decoder -/

/-- The round that follows a pointer, without its accesses. -/
def pointerStep (message : Bytes) (s : NameState) (length : UInt8) :
    Except DnsError (NameState ⊕ (List Str × Nat)) := do
  let second ← okOr message[s.cursor + 1]? (invalidResponse "DNS compression pointer is truncated")
  let pointer := (length &&& 0x3f).toNat * 256 + second.toNat
  refuse (message.length ≤ pointer) (invalidResponse "DNS compression pointer is out of bounds")
  refuse (s.cursor ≤ pointer) (invalidResponse "DNS compression pointer does not point backward")
  refuse (maxDnsNamePointerHops < s.hops + 1)
    (invalidResponse "DNS compression pointer chain exceeds the bound")
  return .inl { s with
    cursor := pointer, resume := some (s.resume.getD (s.cursor + 2)), hops := s.hops + 1 }

/-- The round that ends the name or reads a label, without its accesses. -/
def labelStep (message : Bytes) (s : NameState) (length : UInt8) :
    Except DnsError (NameState ⊕ (List Str × Nat)) :=
  if length = 0 then return .inr (s.labels, s.resume.getD (s.cursor + 1))
  else do
    let decodedBytes := s.decodedBytes + (length.toNat + if s.labels.isEmpty then 0 else 1)
    refuse (63 < length.toNat) (invalidResponse "DNS label exceeds 63 bytes")
    refuse (message.length < s.cursor + 1 + length.toNat) (invalidResponse "DNS label is truncated")
    let label ← okOr (fromUtf8 ((message.drop (s.cursor + 1)).take length.toNat))
      (invalidResponse "DNS response name is not UTF-8/ASCII")
    refuse (!isAscii label) (invalidResponse "DNS response name is not ASCII")
    refuse (253 < decodedBytes) (invalidResponse "DNS decoded name exceeds 253 bytes")
    return .inl
      { s with
        cursor := s.cursor + 1 + length.toNat
        labels := s.labels ++ [toAsciiLowercase label]
        decodedBytes := decodedBytes }

/-- One round, without its accesses. -/
def nameStep (message : Bytes) (s : NameState) :
    Except DnsError (NameState ⊕ (List Str × Nat)) := do
  let length ← okOr message[s.cursor]? (invalidResponse "DNS name is truncated")
  if length &&& 0xc0 = 0xc0 then pointerStep message s length
  else do
    refuse (length &&& 0xc0 ≠ 0) (invalidResponse "DNS name uses an unsupported label encoding")
    labelStep message s length

/-- What has been counted of a name is bounded. -/
def Counted (s : NameState) : Prop := s.decodedBytes ≤ 253 ∧ s.hops ≤ maxDnsNamePointerHops

theorem settles_followPointer {s : NameState} (counted : Counted s)
    (here : s.cursor < message.length) (length : UInt8) :
    Settles (followPointer message s length) (pointerStep message s length) := by
  unfold followPointer pointerStep
  refine (settles_offset addressable (by omega) (by decide)).step ?_
  refine (settles_ofExcept _).bind fun second follows => ?_
  refine (settles_ofExcept _).bind fun _ _ => (settles_ofExcept _).bind fun _ _ => ?_
  have resume : Settles (resumeBehind s) (.ok (s.resume.getD (s.cursor + 2))) := by
    unfold resumeBehind
    cases s.resume with
    | none => exact settles_offset addressable (by omega) (by decide)
    | some resume => rfl
  refine resume.step ?_
  have hops : Settles (sum s.hops 1 : Checked DnsError Nat) (.ok (s.hops + 1)) := by
    refine settles_sum ?_
    have few := counted.2
    simp only [maxDnsNamePointerHops, usizeMax] at *
    omega
  refine hops.step ?_
  exact (settles_ofExcept _).bind fun _ _ => rfl

theorem settles_readLabel {s : NameState} (counted : Counted s)
    (here : s.cursor < message.length) (length : UInt8) :
    Settles (readLabel message s length) (labelStep message s length) := by
  unfold readLabel labelStep
  refine (settles_offset addressable (by omega) (by decide)).step ?_
  split
  · rfl
  have octet : length.toNat < 256 := length.toNat_lt
  have first : (if s.labels.isEmpty then 0 else 1) ≤ 1 := by split <;> omega
  have words : isizeMax + 65536 ≤ usizeMax := by decide
  have bytes := counted.1
  refine (settles_ofExcept _).bind fun _ _ => settles_end (by omega) fun inside => ?_
  have label :=
    @settles_range DnsError _ _ _ _ (Nat.le_add_right (s.cursor + 1) length.toNat) inside
  rw [Nat.add_sub_cancel_left] at label
  refine label.step ((settles_ofExcept _).bind fun text decoded =>
    (settles_ofExcept _).bind fun _ _ => ?_)
  refine (settles_sum (by omega)).step ?_
  unfold checkedAdd
  rw [if_pos (by omega)]
  exact (settles_ofExcept _).step ((settles_ofExcept _).bind fun _ _ => rfl)

theorem settles_nameRound {s : NameState} (counted : Counted s) :
    Settles (nameRound message s) (nameStep message s) := by
  unfold nameRound nameStep
  refine (settles_ofExcept _).bind fun length read => ?_
  have here := getElem?_inside (okOr_eq_ok_iff.mp read)
  split
  · exact settles_followPointer addressable counted here length
  · exact (settles_ofExcept _).bind fun _ _ => settles_readLabel addressable counted here length

omit addressable in
/-- The decoder makes one round and goes on from there. -/
theorem decodeLabels_step (message : Bytes) (s : NameState) : decodeLabels message s =
    (nameStep message s >>= fun
      | .inl next => decodeLabels message next
      | .inr found => .ok found) := by
  rw [decodeLabels, nameStep]
  cases message[s.cursor]? with
  | none => rfl
  | some length =>
      simp only [okOr]
      by_cases mark : length &&& 0xc0 = 0xc0
      · rw [if_pos mark]
        simp only [ok_bind, if_pos mark, pointerStep]
        cases message[s.cursor + 1]? with
        | none => rfl
        | some second =>
            simp only [okOr, refuse, ok_bind]
            split
            · rfl
            split
            · rfl
            split <;> rfl
      · rw [if_neg mark]
        simp only [ok_bind, if_neg mark, labelStep, refuse]
        split
        · rfl
        simp only [ok_bind]
        split
        · rfl
        split
        · rfl
        simp only [ok_bind]
        split
        · rfl
        simp only [ok_bind]
        cases fromUtf8 ((message.drop (s.cursor + 1)).take length.toNat) with
        | none => rfl
        | some label =>
            simp only [okOr, ok_bind]
            split
            · rfl
            simp only [ok_bind]
            generalize s.decodedBytes + (length.toNat + if s.labels.isEmpty then 0 else 1) =
              decodedBytes
            split <;> rfl

omit addressable in
/-- A round that goes on has read a label or followed a pointer, and counted it. -/
theorem nameStep_counts {s next : NameState} (stepped : nameStep message s = .ok (.inl next))
    (counted : Counted s) :
    Counted next ∧ (254 - next.decodedBytes) + (33 - next.hops) < (254 - s.decodedBytes) +
      (33 - s.hops) := by
  obtain ⟨length, -, stepped⟩ := okOr_bind_eq_ok_iff.mp stepped
  obtain ⟨bytes, hops⟩ := counted
  simp only [maxDnsNamePointerHops] at hops
  split at stepped
  · obtain ⟨second, -, stepped⟩ := okOr_bind_eq_ok_iff.mp stepped
    obtain ⟨-, stepped⟩ := refuse_bind_eq_ok_iff.mp stepped
    obtain ⟨-, stepped⟩ := refuse_bind_eq_ok_iff.mp stepped
    obtain ⟨few, stepped⟩ := refuse_bind_eq_ok_iff.mp stepped
    cases stepped
    simp only [maxDnsNamePointerHops] at few
    simp only [Counted, maxDnsNamePointerHops]
    omega
  · obtain ⟨-, stepped⟩ := refuse_bind_eq_ok_iff.mp stepped
    unfold labelStep at stepped
    split at stepped
    · cases stepped
    rename_i nonzero
    have positive : 0 < length.toNat :=
      Nat.pos_of_ne_zero fun none => nonzero (UInt8.toNat_inj.mp none)
    obtain ⟨-, stepped⟩ := refuse_bind_eq_ok_iff.mp stepped
    obtain ⟨-, stepped⟩ := refuse_bind_eq_ok_iff.mp stepped
    obtain ⟨label, -, stepped⟩ := okOr_bind_eq_ok_iff.mp stepped
    obtain ⟨-, stepped⟩ := refuse_bind_eq_ok_iff.mp stepped
    obtain ⟨few, stepped⟩ := refuse_bind_eq_ok_iff.mp stepped
    cases stepped
    simp only [Counted, maxDnsNamePointerHops]
    omega

/-- The loop ends, with the labels of the decoder. -/
theorem settles_nameLoop {rounds : Nat} (enough : 288 ≤ rounds) (offset : Nat) :
    Settles (repeatFor (nameRound message) rounds { cursor := offset })
      (decodeLabels message { cursor := offset }) := by
  have each : ∀ s, Counted s → RoundOf (nameRound message) (decodeLabels message)
      (fun s => (254 - s.decodedBytes) + (33 - s.hops)) Counted s := by
    intro s counted
    have round := settles_nameRound addressable counted
    have step := decodeLabels_step message s
    match stepped : nameStep message s with
    | .error e =>
        rw [stepped] at round step
        exact .fails e round step
    | .ok (.inr found) =>
        rw [stepped] at round step
        exact .ends found round step
    | .ok (.inl next) =>
        rw [stepped] at round step
        obtain ⟨keeps, less⟩ := nameStep_counts stepped counted
        exact .goes next round step less keeps
  exact settles_repeatFor each ⟨Nat.zero_le _, Nat.zero_le _⟩ enough

variable {rounds : Nat} (enough : 288 ≤ rounds)
include enough

theorem settles_decodeName (offset : Nat) :
    Settles (decodeName rounds message offset) (Dns.decodeName message offset) := by
  unfold decodeName Dns.decodeName
  refine (settles_nameLoop addressable enough offset).bind fun found _ => ?_
  refine (settles_ofExcept _).bind fun _ _ => ?_
  cases normalizeName (['.'].intercalate found.1) with
  | error e => rfl
  | ok name => rfl

/-! ### Records -/

theorem settles_parseRecord (offset : Nat) :
    Settles (parseRecord rounds message offset) (Dns.parseRecord message offset) := by
  unfold parseRecord Dns.parseRecord
  refine (settles_decodeName addressable enough offset).bind ?_
  rintro ⟨owner, fields⟩ named
  have inside := (decodeName_behind named).2
  refine (settles_takeU16 addressable inside).bind ?_
  rintro ⟨rrType, offset₁⟩ typed
  obtain ⟨typeRead, rfl⟩ := takeU16_eq_ok typed
  refine (settles_takeU16 addressable (readU16_inside typeRead)).bind ?_
  rintro ⟨cls, offset₂⟩ classed
  obtain ⟨classRead, rfl⟩ := takeU16_eq_ok classed
  refine (settles_takeU32 addressable (readU16_inside classRead)).bind ?_
  rintro ⟨ttl, offset₃⟩ lived
  refine (settles_takeU16 addressable (takeU32_inside lived)).bind ?_
  rintro ⟨rdlength, offset₄⟩ measured
  obtain ⟨lengthRead, rfl⟩ := takeU16_eq_ok measured
  have words : isizeMax + 65536 ≤ usizeMax := by decide
  have start := readU16_inside lengthRead
  have octets := rdlength.toNat_lt
  exact settles_end (by omega) fun _ => rfl

theorem settles_parseRecords (count offset : Nat) :
    Settles (parseRecords rounds message count offset) (Dns.parseRecords message count offset) := by
  induction count generalizing offset with
  | zero => rfl
  | succ count ih =>
      refine (settles_parseRecord addressable enough offset).bind ?_
      rintro ⟨record, behind⟩ _
      exact (ih behind).bind fun _ _ => rfl

theorem settles_aliasTarget (record : ResourceRecord) :
    Settles (aliasTarget rounds message record) (Dns.aliasTarget message record) := by
  refine (settles_decodeName addressable enough record.start).bind ?_
  rintro ⟨target, behind⟩ _
  exact (settles_ofExcept _).bind fun _ _ => rfl

theorem settles_followAliases (records : List ResourceRecord) (s : AliasState) :
    Settles (followAliases rounds message records s) (Dns.followAliases message records s) := by
  induction records generalizing s with
  | nil => rfl
  | cons record records ih =>
      unfold followAliases Dns.followAliases
      split
      · exact ih s
      · exact (settles_aliasTarget addressable enough record).bind fun target _ => ih _

theorem settles_acceptNames (records : List ResourceRecord) (hops : Nat) (s : AliasState) :
    Settles (acceptNames rounds message records hops s)
      (Dns.acceptNames message records hops s) := by
  induction hops generalizing s with
  | zero => rfl
  | succ hops ih =>
      unfold acceptNames Dns.acceptNames
      refine (settles_followAliases addressable enough records _).bind fun s' _ => ?_
      split
      · rfl
      · exact (settles_ofExcept _).bind fun _ _ => ih s'

omit enough in
/-- The range of the record lies in the message, so its octets can be taken one by one or as a
slice. -/
theorem settles_recordAddress {record : ResourceRecord}
    (inside : record.start ≤ record.stop ∧ record.stop ≤ message.length) :
    Settles (recordAddress recordType message record)
      (Dns.recordAddress recordType message record) := by
  obtain ⟨ordered, inside⟩ := inside
  cases recordType with
  | a =>
      unfold recordAddress Dns.recordAddress
      refine (settles_ofExcept _).bind fun _ four => ?_
      have four := not_not.mp (refuse_eq_ok_iff.mp four)
      have octet : ∀ index, index < 4 → message[record.start + index]? =
          some (byteAt message (record.start + index)) :=
        fun index within => by rw [byteAt, List.getD_eq_getElem?_getD,
          List.getElem?_eq_getElem (by omega), Option.getD_some]
      have words : isizeMax + 65536 ≤ usizeMax := by decide
      refine (settles_index (octet 0 (by decide))).step ?_
      refine (settles_sum (by omega)).step ((settles_index (octet 1 (by decide))).step ?_)
      refine (settles_sum (by omega)).step ((settles_index (octet 2 (by decide))).step ?_)
      refine (settles_sum (by omega)).step ((settles_index (octet 3 (by decide))).step ?_)
      rw [four]
      simp only [Ipv4Addr.ofOctets, byteAt_take, byteAt_drop, Nat.reduceLT]
      rfl
  | aaaa =>
      unfold recordAddress Dns.recordAddress
      refine (settles_ofExcept _).bind fun _ sixteen => ?_
      have sixteen := not_not.mp (refuse_eq_ok_iff.mp sixteen)
      refine (settles_range ordered inside).step ?_
      have whole : ((message.drop record.start).take (record.stop - record.start)).length = 16 := by
        rw [List.length_take, List.length_drop]
        omega
      rw [refuse_of_not (by simpa using whole)]
      exact (settles_ofExcept _).step rfl

omit enough in
theorem settles_collectAddresses {names : Finset Str} {records : List ResourceRecord}
    (inside : ∀ record ∈ records, record.start ≤ record.stop ∧ record.stop ≤ message.length)
      (state : List IpAddr × Option Nat) :
    Settles (collectAddresses recordType message names records state)
      (Dns.collectAddresses recordType message names records state) := by
  induction records generalizing state with
  | nil => rfl
  | cons record records ih =>
      have later : ∀ record ∈ records, record.start ≤ record.stop ∧ record.stop ≤ message.length :=
        fun record member => inside record (List.mem_cons_of_mem _ member)
      unfold collectAddresses Dns.collectAddresses
      split
      · exact ih later _
      · exact (settles_recordAddress addressable (inside record List.mem_cons_self)).bind fun _
          _ => ih later _

/-! ### The response -/

theorem settles_parseAnswerRecords :
    Settles (parseAnswerRecords rounds expectedId query recordType message)
    (Dns.parseAnswerRecords expectedId query recordType message) := by
  unfold parseAnswerRecords Dns.parseAnswerRecords
  refine (settles_ofExcept _).bind fun _ sized => ?_
  have sized := refuse_eq_ok_iff.mp sized
  simp only [dnsHeaderBytes] at sized
  have header : ∀ offset, offset ≤ 12 →
      Settles (readU16 message offset) (Dns.readU16 message offset) :=
    fun offset within => settles_readU16 addressable (by omega)
  refine (header 0 (by decide)).bind fun id _ => (settles_ofExcept _).bind fun _ _ => ?_
  refine (header 2 (by decide)).bind fun flags _ => (settles_ofExcept _).bind fun _ _ => ?_
  refine (settles_ofExcept _).bind fun _ _ => (settles_ofExcept _).bind fun _ _ => ?_
  refine (header 4 (by decide)).bind fun questions _ =>
    (header 6 (by decide)).bind fun count _ => ?_
  refine (settles_ofExcept _).bind fun _ _ => (settles_ofExcept _).bind fun _ _ => ?_
  refine (settles_decodeName addressable enough _).bind ?_
  rintro ⟨name, fields⟩ named
  refine (settles_ofExcept _).bind fun _ _ => ?_
  refine (settles_takeU16 addressable (decodeName_behind named).2).bind ?_
  rintro ⟨questionType, offset₁⟩ typed
  obtain ⟨typeRead, rfl⟩ := takeU16_eq_ok typed
  refine (settles_takeU16 addressable (readU16_inside typeRead)).bind ?_
  rintro ⟨questionClass, offset₂⟩ _
  exact (settles_ofExcept _).bind fun _ _ => settles_parseRecords addressable enough _ _

theorem settles_parseAddressResponse :
    Settles (parseAddressResponse rounds expectedId query recordType message)
    (Dns.parseAddressResponse expectedId query recordType message) := by
  refine (settles_parseAnswerRecords addressable enough).bind fun records parsed => ?_
  obtain ⟨fields, -, -, -, listed⟩ := (parseAnswerRecords_accepted parsed).question
  refine (settles_acceptNames addressable enough records _ _).bind fun s _ => ?_
  refine (settles_collectAddresses addressable listed.ranges _).bind ?_
  rintro ⟨addresses, ttl⟩ _
  rfl

end Access

/-- Every run of the name decoder and of the response parser ends with a result, on any message that
can be in memory: no round panics over an access or a sum, and the loop of the decoder is over
within 288 rounds. A decoded name ends behind its start, and within the message. -/
theorem wire_parsing_is_total (message : Bytes) (addressable : message.length ≤ isizeMax) :
    (∀ offset rounds, 288 ≤ rounds →
      ∃ result, (Access.decodeName rounds message offset).Settles result ∧
      result = decodeName message offset ∧
      ∀ name behind, result = .ok (name, behind) → offset < behind ∧ behind ≤ message.length) ∧
    ∀ expectedId query recordType rounds, 288 ≤ rounds → ∃ result,
      (Access.parseAddressResponse rounds expectedId query recordType message).Settles result ∧
      result = parseAddressResponse expectedId query recordType message := by
  constructor
  · intro offset rounds enough
    exact ⟨_, Access.settles_decodeName addressable enough offset, rfl, fun name behind decoded =>
      decodeName_behind decoded⟩
  · intro expectedId query recordType rounds enough
    exact ⟨_, Access.settles_parseAddressResponse addressable enough, rfl⟩

/-- A label run that leads back to the same pointer: the name of the record is refused, without a
panic. -/
theorem wire_parsing_is_total_example : ∃ result,
    (Access.decodeName 288 [1, 97, 0xc0, 0] 0).Settles result ∧ result.toOption = none := by
  obtain ⟨decodes, -⟩ := wire_parsing_is_total [1, 97, 0xc0, 0] (by decide)
  obtain ⟨result, settles, same, -⟩ := decodes 0 288 (Nat.le_refl _)
  refine ⟨result, settles, ?_⟩
  rw [same]
  decide +kernel

end Commeatus.Dns
