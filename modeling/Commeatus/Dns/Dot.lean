import Commeatus.Dns.Wire
import Commeatus.Lib.Session

/-!
The DNS-over-TLS resolver (`dns/src/dot.rs`).

One session at most is kept between queries. An exchange writes one
length-prefixed request and reads one length-prefixed response; it connects
again once when the session fails. The log keeps every connection attempt and
every exchange on a session with its outcome; the program does not read it.
-/

namespace Commeatus.Dns

open Commeatus.Lib Commeatus.Core

def dotLengthBytes : Nat := 2
def dotConnectAttempts : Nat := 2

inductive DotEvent where
  | connect (outcome : Except IoError Nat)
  | exchange (session : Nat) (request : Bytes) (outcome : Except IoError Bytes)
  deriving DecidableEq

/-- The state behind the lock, beside the connector: `connects` is what its next calls give. -/
structure DotState where
  session : Option Session := none
  connects : List (Except IoError Session) := []
  attempts : Nat := 0
  log : List DotEvent := []

def exchangeMessage (request : Bytes) : IoM Session Bytes := do
  if 65535 < request.length then
    IoM.fail ⟨.invalidInput, "DNS-over-TLS request exceeds 65535 bytes"⟩
  else do
    Session.writeAll (toBeBytes (UInt16.ofNat request.length) ++ request)
    Session.flush
    let length ← Session.readExact dotLengthBytes
    let length := (fromBeBytes (byteAt length 0) (byteAt length 1)).toNat
    if length < dnsHeaderBytes then
      IoM.fail ⟨.invalidData, "DNS-over-TLS response is shorter than a DNS header"⟩
    else Session.readExact length

namespace DotState

/-- `TransportConnector::connect`: a session that is new has done nothing, and has a number of its
own. -/
def connect (s : DotState) : Except IoError Session × DotState :=
  let after (outcome : Except IoError Nat) : DotState :=
    { s with
      connects := s.connects.tail, attempts := s.attempts + 1, log := s.log ++ [.connect outcome] }
  match s.connects with
  | .ok session :: _ =>
      (.ok { session with number := s.attempts, written := [], consumed := [] },
        after (.ok s.attempts))
  | .error e :: _ => (.error e, after (.error e))
  | [] =>
      (.error ⟨.connectionRefused, "connection refused"⟩,
        after (.error ⟨.connectionRefused, "connection refused"⟩))

/-- Connect if there is no session. -/
def ensureSession (s : DotState) : Except IoError Unit × DotState :=
  match s.session with
  | some _ => (.ok (), s)
  | none =>
      match s.connect with
      | (.ok session, s) => (.ok (), { s with session := some session })
      | (.error e, s) => (.error e, s)

/-- The exchange on a session: a session that fails is dropped. -/
def exchangeOn (request : Bytes) (s : DotState) (session : Session) :
    Except IoError Bytes × DotState :=
  match exchangeMessage request session with
  | (.ok response, session) =>
      (.ok response,
        { s with
          session := some session
          log := s.log ++ [.exchange session.number request (.ok response)] })
  | (.error e, session) =>
      (.error e,
        { s with session := none, log := s.log ++ [.exchange session.number request (.error e)] })

/-- One round of the exchange loop. -/
def attempt (request : Bytes) (s : DotState) : Except IoError Bytes × DotState :=
  match s.ensureSession with
  | (.error e, s) => (.error e, s)
  | (.ok _, s) =>
      match s.session with
      | none => (.error ⟨.other, "DNS-over-TLS connector returned without a usable session"⟩, s)
      | some session => s.exchangeOn request session

/-- The rounds that are left, after the given error. -/
def exchangeRounds (request : Bytes) : Nat → Option IoError → DotState →
    Except DnsError Bytes × DotState
  | 0, lastError, s =>
      (.error ⟨.resolverFailure, "DNS-over-TLS exchange failed after reconnect: " ++
        (lastError.map IoError.message).getD "unknown transport failure"⟩, s)
  | rounds + 1, _, s =>
      match s.attempt request with
      | (.ok response, s) => (.ok response, s)
      | (.error e, s) => exchangeRounds request rounds (some e) s

/-- `DotState::exchange`. -/
def exchange (request : Bytes) (s : DotState) : Except DnsError Bytes × DotState :=
  exchangeRounds request dotConnectAttempts none s

/-- The verdict on a response. A malformed one means that the framing of the session can no longer
be trusted. -/
def judge (id : UInt16) (query : DnsQuery) (recordType : AddressRecordType)
    (response : Bytes) (s : DotState) :
    Except DnsError DnsAnswer × DotState :=
  match parseAddressResponse id query recordType response with
  | .ok answer => (.ok answer, s)
  | .error e => (.error e, if e.kind = .invalidResponse then { s with session := none } else s)

/-- What is done under the lock for the query with the given id. -/
def resolveFamily (id : UInt16) (query : DnsQuery) (recordType : AddressRecordType) (s : DotState) :
    Except DnsError DnsAnswer × DotState :=
  match encodeAddressQuery id query recordType with
  | .error e => (.error e, s)
  | .ok request =>
      match s.exchange request with
      | (.error e, s) => (.error e, s)
      | (.ok response, s) => s.judge id query recordType response

end DotState

structure DotResolver where
  state : DotState := {}
  nextId : UInt16 := 1

namespace DotResolver

/-- `DotResolver::resolve_family`: the id comes from a counter that wraps. -/
def resolveFamily (query : DnsQuery) (recordType : AddressRecordType) (r : DotResolver) :
    Except DnsError DnsAnswer × DotResolver :=
  let out := r.state.resolveFamily r.nextId query recordType
  (out.1, ⟨out.2, r.nextId + 1⟩)

/-- What the loop over the two families has collected. -/
structure Collected where
  addresses : List IpAddr := []
  ttl : Option Nat := none
  lastError : Option DnsError := none

/-- The outcome of a family joins what has been collected. -/
def Collected.join (c : Collected) : Except DnsError DnsAnswer → Collected
  | .ok answer =>
      { c with
        addresses := answer.addresses.foldl pushNew c.addresses
        ttl := match answer.ttl with
          | some ttl => some (minTtl c.ttl ttl)
          | none => c.ttl }
  | .error e => { c with lastError := some e }

/-- `DotResolver::resolve`. -/
def resolve (query : DnsQuery) (r : DotResolver) : Except DnsError DnsAnswer × DotResolver :=
  let (a, r) := r.resolveFamily query .a
  let (aaaa, r) := r.resolveFamily query .aaaa
  let c := (({} : Collected).join a).join aaaa
  if c.addresses.isEmpty then
    (.error (c.lastError.getD
      ⟨.noRecords, "DNS-over-TLS returned no addresses for " ++ String.ofList query.name⟩), r)
  else (DnsAnswer.new c.addresses c.ttl, r)

end DotResolver

end Commeatus.Dns
