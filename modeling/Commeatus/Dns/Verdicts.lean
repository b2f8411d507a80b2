import Commeatus.Dns.AliasOrder
import Commeatus.Dns.Dot
import Commeatus.Dns.Labels

/-!
Which responses a verdict is believed from.

An answer and a report that there are no records are verdicts: the resolver
over TLS takes both as they come and keeps its session. An answer comes from a
response to the very query. The report of NXDOMAIN is made from the header
alone, before the question is read.
-/

namespace Commeatus.Dns

open Commeatus.Lib Commeatus.Core

variable {message : Bytes} {query : DnsQuery} {recordType : AddressRecordType} {expectedId : UInt16}

/-- The question section is exactly one question, with the name, the type and the class of the
query. -/
structure AsksOnly (query : DnsQuery) (recordType : AddressRecordType)
    (message : Bytes) : Prop where
  oneQuestion : readU16 message 4 = .ok 1
  question : ∃ fields, decodeName message dnsHeaderBytes = .ok (query.name, fields) ∧
    readU16 message fields = .ok recordType.code ∧ readU16 message (fields + 2) = .ok classIn

/-- The message is a whole response to the query. -/
structure Responds (expectedId : UInt16) (query : DnsQuery) (recordType : AddressRecordType)
    (message : Bytes) : Prop where
  id : readU16 message 0 = .ok expectedId
  flags : ∃ flags, readU16 message 2 = .ok flags ∧ flags &&& flagQr ≠ 0 ∧ flags &&& flagTc = 0
  asks : AsksOnly query recordType message

/-- An answer, or the report that there are no records. -/
def Verdict (result : Except DnsError DnsAnswer) : Prop :=
  ∀ e, result = .error e → e.kind = .noRecords

/-- The header has the expected id and reports NXDOMAIN. -/
structure ReportsNxdomain (expectedId : UInt16) (message : Bytes) : Prop where
  size : dnsHeaderBytes ≤ message.length ∧ message.length ≤ maxDnsMessageBytes
  id : readU16 message 0 = .ok expectedId
  flags : ∃ flags, readU16 message 2 = .ok flags ∧ flags &&& flagQr ≠ 0 ∧ flags &&& flagTc = 0 ∧
    flags &&& rcodeMask = 3

theorem Accepted.responds {records : List ResourceRecord}
    (accepted : Accepted expectedId query recordType message records) :
    Responds expectedId query recordType message := by
  obtain ⟨flags, flagged, response, whole, -⟩ := accepted.flags
  obtain ⟨fields, named, typed, classed, -⟩ := accepted.question
  exact ⟨accepted.id, ⟨flags, flagged, response, whole⟩, accepted.oneQuestion, fields,
    named, typed, classed⟩

/-- Where no label of the question has a dot, its labels are those of the query. -/
theorem AsksOnly.labels (asks : AsksOnly query recordType message) {labels : List Str}
    (wire : WireLabels message dnsHeaderBytes labels) (free : DotFree labels) :
    folded labels = query.name.splitOn '.' := by
  obtain ⟨fields, named, -⟩ := asks.question
  exact (splitOn_of_dotFree named wire free).symm

/-! ### The errors of the parser -/

theorem readU16_fails (message : Bytes) (offset : Nat) :
    FailsWith TellsInvalid (readU16 message offset) := by
  unfold readU16
  split
  · exact .ok _
  · exact .error rfl

theorem takeU16_fails (message : Bytes) (offset : Nat) :
    FailsWith TellsInvalid (takeU16 message offset) :=
  (readU16_fails message offset).bind fun _ => .ok _

theorem takeU32_fails (message : Bytes) (offset : Nat) :
    FailsWith TellsInvalid (takeU32 message offset) := by
  unfold takeU32
  split
  · exact .ok _
  · exact .error rfl

theorem parseRecord_fails (message : Bytes) (offset : Nat) :
    FailsWith TellsInvalid (parseRecord message offset) := by
  unfold parseRecord
  refine (decodeName_fails message _).bind fun _ => (takeU16_fails message _).bind fun _ => ?_
  refine (takeU16_fails message _).bind fun _ => (takeU32_fails message _).bind fun _ => ?_
  exact (takeU16_fails message _).bind fun _ => (refuse_fails _ _).bind fun _ => .ok _

theorem parseRecords_fails (message : Bytes) (count offset : Nat) :
    FailsWith TellsInvalid (parseRecords message count offset) := by
  induction count generalizing offset with
  | zero => exact .ok _
  | succ count ih =>
      exact (parseRecord_fails message offset).bind fun found => (ih found.2).bind fun _ => .ok _

theorem checkRcode_noRecords {flags : UInt16} {e : DnsError}
    (failed : checkRcode flags query = .error e)
    (kind : e.kind = .noRecords) : flags &&& rcodeMask = 3 := by
  unfold checkRcode at failed
  dsimp only at failed
  split at failed
  · cases failed
  · split at failed
    · assumption
    · cases failed
      cases kind

/-- Before the records, only the header reports that there are none. -/
theorem reportsNxdomain_of_noRecords {e : DnsError}
    (failed : parseAnswerRecords expectedId query recordType message = .error e)
    (kind : e.kind = .noRecords) : ReportsNxdomain expectedId message := by
  obtain ⟨-, rfl⟩ | ⟨size, failed⟩ := refuse_bind_eq_error_iff.mp failed
  · cases kind
  obtain failed | ⟨id, identified, failed⟩ := bind_eq_error_iff.mp failed
  · cases (readU16_fails message 0 e failed).symm.trans kind
  obtain ⟨-, rfl⟩ | ⟨same, failed⟩ := refuse_bind_eq_error_iff.mp failed
  · cases kind
  obtain failed | ⟨flags, flagged, failed⟩ := bind_eq_error_iff.mp failed
  · cases (readU16_fails message 2 e failed).symm.trans kind
  obtain ⟨-, rfl⟩ | ⟨response, failed⟩ := refuse_bind_eq_error_iff.mp failed
  · cases kind
  obtain ⟨-, rfl⟩ | ⟨whole, failed⟩ := refuse_bind_eq_error_iff.mp failed
  · cases kind
  push Not at size same whole
  obtain failed | ⟨u, -, failed⟩ := bind_eq_error_iff.mp failed
  · rw [same] at identified
    exact ⟨size, identified, flags, flagged, response, whole, checkRcode_noRecords failed kind⟩
  -- What follows the header fails as an invalid response only.
  have invalid : TellsInvalid e := by
    refine FailsWith.bind (readU16_fails message 4) (fun _ => ?_) e failed
    refine (readU16_fails message 6).bind fun _ => (refuse_fails _ _).bind fun _ =>
      (refuse_fails _ _).bind fun _ => ?_
    refine (decodeName_fails message _).bind fun _ => (refuse_fails _ _).bind fun _ => ?_
    refine (takeU16_fails message _).bind fun _ => (takeU16_fails message _).bind fun _ => ?_
    exact (refuse_fails _ _).bind fun _ => parseRecords_fails message _ _
  cases invalid.symm.trans kind

/-- A header that reports NXDOMAIN settles the result. -/
theorem ReportsNxdomain.verdict (reports : ReportsNxdomain expectedId message) (query : DnsQuery)
    (recordType : AddressRecordType) : parseAddressResponse expectedId query recordType message =
      .error ⟨.noRecords, "DNS upstream reported NXDOMAIN for " ++ String.ofList query.name⟩ := by
  obtain ⟨⟨long, short⟩, identified, flags, flagged, response, whole, code⟩ := reports
  unfold parseAddressResponse parseAnswerRecords
  rw [refuse_of_not (by omega), identified, flagged]
  change ((refuse (expectedId ≠ expectedId) _ >>= fun _ =>
      refuse (flags &&& flagQr = 0) _ >>= fun _ =>
    refuse (flags &&& flagTc ≠ 0) _ >>= fun _ => checkRcode flags query >>= _) >>= _) = _
  rw [refuse_of_not (by simp), refuse_of_not response, refuse_of_not (by simpa using whole)]
  have coded : checkRcode flags query =
      .error ⟨.noRecords, "DNS upstream reported NXDOMAIN for " ++ String.ofList query.name⟩ := by
    unfold checkRcode
    dsimp only
    rw [if_neg (by rw [code]; decide), if_pos code]
  change ((checkRcode flags query >>= _) >>= _) = _
  rw [coded]
  rfl

/-- The resolver takes the parser's result, and drops its session only over an invalid response. -/
theorem DotState.judge_verdict (id : UInt16) (query : DnsQuery) (recordType : AddressRecordType)
    (response : Bytes) (s : DotState) :
    (s.judge id query recordType response).1 = parseAddressResponse id query recordType response ∧
      (Verdict (s.judge id query recordType response).1 →
        (s.judge id query recordType response).2 = s) := by
  unfold judge
  match parseAddressResponse id query recordType response with
  | .ok answer => exact ⟨rfl, fun _ => rfl⟩
  | .error e =>
      refine ⟨rfl, fun verdict => if_neg fun invalid => ?_⟩
      cases invalid.symm.trans (verdict e rfl)

/-- Verdicts come from responses to the query alone exactly when no header that reports NXDOMAIN
stands over another question; and after a verdict the resolver keeps its session. -/
theorem verdicts_respond_iff (expectedId : UInt16) (query : DnsQuery)
    (recordType : AddressRecordType) (message : Bytes) :
    ((Verdict (parseAddressResponse expectedId query recordType message) →
      Responds expectedId query recordType message) ↔
      (ReportsNxdomain expectedId message → AsksOnly query recordType message)) ∧
    ∀ s : DotState, (s.judge expectedId query recordType message).1 =
      parseAddressResponse expectedId query recordType message ∧
      (Verdict (s.judge expectedId query recordType message).1 →
        (s.judge expectedId query recordType message).2 = s) := by
  refine ⟨⟨fun holds reports => ?_, fun asked verdict => ?_⟩,
    DotState.judge_verdict expectedId query recordType message⟩
  · refine (holds fun e failed => ?_).asks
    rw [reports.verdict query recordType] at failed
    cases failed
    rfl
  · match parsed : parseAnswerRecords expectedId query recordType message with
    | .ok records => exact (parseAnswerRecords_accepted parsed).responds
    | .error e =>
        have failed : parseAddressResponse expectedId query recordType message = .error e := by
          rw [parseAddressResponse, parsed]
          rfl
        have reports := reportsNxdomain_of_noRecords parsed (verdict e failed)
        obtain ⟨flags, flagged, response, whole, -⟩ := reports.flags
        exact ⟨reports.id, ⟨flags, flagged, response, whole⟩, asked reports⟩

/-- An NXDOMAIN response to the question for the address of `x.y`. -/
def foreignNxdomain : Bytes :=
  [0x12, 0x34, 0x81, 0x83, 0, 1, 0, 0, 0, 0, 0, 0] ++ [1, 120, 1, 121, 0, 0, 1, 0, 1]

/-- The query for `a.b` takes the response to `x.y` for the report that `a.b` has no records, and
the session is kept. -/
theorem foreign_nxdomain_believed :
    Verdict (parseAddressResponse 0x1234 ⟨"a.b".toList, by decide⟩ .a foreignNxdomain) ∧
    ¬ Responds 0x1234 ⟨"a.b".toList, by decide⟩ .a foreignNxdomain ∧
    ∀ s : DotState, (s.judge 0x1234 ⟨"a.b".toList, by decide⟩ .a foreignNxdomain).2 = s := by
  have reports : ReportsNxdomain 0x1234 foreignNxdomain :=
    ⟨by decide, by decide, 0x8183, by decide, by decide, by decide, by decide⟩
  have verdict :
      Verdict (parseAddressResponse 0x1234 ⟨"a.b".toList, by decide⟩ .a foreignNxdomain) := by
    intro e failed
    rw [reports.verdict] at failed
    cases failed
    rfl
  refine ⟨verdict, fun responds => ?_, fun s => ?_⟩
  · obtain ⟨fields, named, -⟩ := responds.asks.question
    have other : decodeName foreignNxdomain dnsHeaderBytes = .ok ("x.y".toList, 17) := by
      decide +kernel
    cases other.symm.trans named
  · obtain ⟨same, keeps⟩ :=
      DotState.judge_verdict 0x1234 ⟨"a.b".toList, by decide⟩ .a foreignNxdomain s
    exact keeps (by rwa [same])

end Commeatus.Dns
