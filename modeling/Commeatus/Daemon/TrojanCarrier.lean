import Commeatus.Daemon.TrojanBackpressure
import Commeatus.Transport.TlsDelivery

/-!
The Trojan UDP carrier as a whole: sends and receives, in any order, on one
association.

What the TLS writer accepted is the preface and a front of the frames of the
datagrams that were sent. What the receives returned are the datagrams of the
plaintext that was read, in order and each one once; the bytes behind them wait
in the receive buffer.
-/

namespace Commeatus.Daemon.TrojanDatagram

open Commeatus.Lib Commeatus.Transport Trojan

variable {κ : Type} {tls : Rustls κ} {log : κ → Bytes}

/-! ### The receive buffer holds what was read and not taken -/

def pairOf (datagram : ReceivedDatagram) : Target × Bytes := (datagram.source, datagram.payload)

/-- The datagrams received are those at the front of the plaintext read, and the buffer holds the
rest. -/
def Decoded (log : κ → Bytes) (received : List ReceivedDatagram)
    (e : TrojanDatagramExecution κ) : Prop :=
  udpFraming.Decodes (received.map pairOf) (log e.tls.connection) e.rx

/-- What `Decoded` looks at. -/
def readView (log : κ → Bytes) (e : TrojanDatagramExecution κ) : Bytes × Bytes :=
  (log e.tls.connection, e.rx)

theorem Decoded.of_view (received : List ReceivedDatagram) (e e' : TrojanDatagramExecution κ)
    (same : readView log e' = readView log e) (h : Decoded log received e) :
    Decoded log received e' := by
  obtain ⟨plaintext, rx⟩ := Prod.mk.inj same
  unfold Decoded
  rw [plaintext, rx]
  exact h

theorem enqueue_readView (bytes : Bytes) :
    Run.Keeps (readView log) (Run.ofIo (enqueue (κ := κ) bytes)) := by
  intro e result e' queued
  rcases enqueue_cases bytes e with ⟨error, refused⟩ | ⟨-, -, admitted⟩
  · cases (Option.some.inj queued).symm.trans refused
    rfl
  · cases (Option.some.inj queued).symm.trans admitted
    rfl

theorem drainPending_readView (h : tls.ReadLog log) (rounds : Nat) :
    Run.Keeps (readView log) (drainPending tls rounds) := by
  refine .loop fun e => ?_
  rcases drainRound_cases tls e with ⟨-, stop⟩ | ⟨frame, rest, -, cases⟩
  · rw [stop]
  have kept := h.write frame.remaining e.tls.connection
  rcases cases with ⟨-, popped⟩ | ⟨-, error, connection, failed, after⟩ | ⟨-,
    connection, zero, after⟩ |
    ⟨-, written, connection, -, wrote, after⟩
  · rw [popped]
    rfl
  · rw [failed] at kept
    rw [after]
    exact Prod.ext kept rfl
  · rw [zero] at kept
    rw [after]
    exact Prod.ext kept rfl
  · rw [wrote] at kept
    rw [after]
    exact Prod.ext kept rfl

theorem onTls_readView {α : Type} {x : Run (TlsFramedSession κ) α}
    (kept : Run.Keeps (fun s => log s.connection) x) : Run.Keeps (readView log) (onTls x) :=
  .zoom kept fun _ _ same => Prod.ext same rfl

theorem refreshReadiness_readView (h : tls.ReadLog log) :
    Run.Keeps (readView log) (refreshReadiness tls) := by
  intro e result e' refreshed
  unfold refreshReadiness at refreshed
  split at refreshed
  · refine onTls_readView ?_ e result e' refreshed
    intro s r s' answer
    show log s'.connection = log s.connection
    rw [← h.refreshReadiness s, Option.some.inj answer]
  · cases refreshed
    rfl
  · cases refreshed
    rfl

theorem send_readView (h : tls.ReadLog log) (rounds : Nat) (target : Target) (payload : Bytes) :
    Run.Keeps (readView log) (send tls rounds target payload) := by
  unfold send
  split
  · intro e result e' failed
    cases failed
    rfl
  · exact (enqueue_readView _).bind fun _ => (drainPending_readView h rounds).bind fun _ =>
      refreshReadiness_readView h

/-- What a round reads joins the buffer. -/
theorem readPlaintextRound_decoded (h : tls.ReadLog log) {received : List ReceivedDatagram}
    {e : TrojanDatagramExecution κ} (decoded : Decoded log received e) :
    Decoded log received (readPlaintextRound tls e).2 := by
  unfold readPlaintextRound
  split
  · exact decoded
  generalize min (maxRxBytes - e.rx.length) tlsPlaintextReadChunk = limit
  rcases answer : tls.read limit e.tls.connection with ⟨error | bytes, connection⟩
  · have same := h.readError answer
    have kept : Decoded log received { e with tls := { e.tls with connection } } :=
      decoded.of_view received e _ (Prod.ext same rfl)
    simp only [TlsFramedSession.readPlaintext, answer]
    split
    · exact kept
    split
    · exact kept
    · exact kept
  · have joined := h.read answer
    have more := Framing.Decodes.append decoded bytes
    rw [← joined] at more
    cases bytes with
    | nil =>
        rw [List.append_nil] at more
        simp only [TlsFramedSession.readPlaintext, answer]
        exact more
    | cons b rest =>
        simp only [TlsFramedSession.readPlaintext, answer]
        exact more

theorem serviceReady_decoded (h : tls.ReadLog log)
    (received : List ReceivedDatagram) (rounds : Nat) :
    Run.Preserves (Decoded log received) (serviceReady tls rounds) := by
  have drain := (drainPending_readView h rounds).preserves (Decoded.of_view received)
  have service := (onTls_readView (h.serviceIo rounds)).preserves (Decoded.of_view received)
  have read : Run.Preserves (Decoded log received) (readPlaintextIntoRx tls rounds) :=
    .loop fun _ decoded => readPlaintextRound_decoded h decoded
  have refresh := (refreshReadiness_readView h).preserves (Decoded.of_view received)
  exact drain.bind fun _ => service.bind fun _ => drain.bind fun _ => read.bind fun _ => refresh

/-! ### Receives -/

/-- The datagram an operation returned, if it returned one. -/
def receivedFrom : Except IoError (Option ReceivedDatagram) → List ReceivedDatagram
  | .ok (some datagram) => [datagram]
  | .ok none => []
  | .error _ => []

theorem takeFrame_error {outputLen : Nat} {e e' : TrojanDatagramExecution κ} {error : IoError}
    (taken : takeFrame outputLen e = (.error error, e')) : e' = e := by
  unfold takeFrame at taken
  split at taken
  · cases taken
    rfl
  · cases taken
  · dsimp only at taken
    split at taken
    · cases taken
      rfl
    · cases taken

/-- A frame that fits the output buffer is taken as the framing takes it. -/
theorem takeFrame_some {outputLen : Nat} {e e' : TrojanDatagramExecution κ}
    {datagram : ReceivedDatagram}
    (taken : takeFrame outputLen e = (.ok (some datagram), e')) :
    udpFraming.take e.rx = (.ok (some (pairOf datagram)), e'.rx) ∧ e'.tls = e.tls := by
  unfold takeFrame at taken
  split at taken
  · cases taken
  · cases taken
  rename_i frame parsed
  dsimp only at taken
  split at taken
  · cases taken
  · cases taken
    refine ⟨?_, rfl⟩
    have decodes : udpFraming.decode e.rx = decodeFrame e.rx := rfl
    unfold Framing.take
    rw [decodes]
    simp [decodeFrame, parsed, Except.map, shiftOut_eq_drop, pairOf]

theorem takeFrame_decoded {outputLen : Nat} {received : List ReceivedDatagram}
    {e e' : TrojanDatagramExecution κ}
    {result : Except IoError (Option ReceivedDatagram)} (decoded : Decoded log received e)
    (taken : takeFrame outputLen e = (result, e')) :
    Decoded log (received ++ receivedFrom result) e' := by
  rcases result with error | _ | datagram
  · rw [takeFrame_error taken]
    simpa [receivedFrom] using decoded
  · rw [(takeFrame_none taken).1]
    simpa [receivedFrom] using decoded
  · obtain ⟨next, same⟩ := takeFrame_some taken
    have longer := Framing.Decodes.take decoded next
    unfold Decoded
    rw [same, List.map_append]
    exact longer

/-- A receive returns the next datagram, if it returns one; where it returns none, no complete frame
is in the buffer. -/
theorem receive_decoded (h : tls.ReadLog log) {rounds outputLen : Nat}
    {received : List ReceivedDatagram}
    {e e' : TrojanDatagramExecution κ} {result : Except IoError (Option ReceivedDatagram)}
    (decoded : Decoded log received e)
    (returned : receive tls rounds outputLen e = some (result, e')) :
    Decoded log (received ++ receivedFrom result) e' ∧
    (result = .ok none → parseUdpFrame e'.rx = .ok none) := by
  unfold receive at returned
  rcases Run.bind_eq_some returned with ⟨first, e₁, taken, later⟩ | ⟨error, failed, rfl⟩
  swap
  · exact ⟨takeFrame_decoded decoded (Option.some.inj failed), nofun⟩
  have afterFirst := takeFrame_decoded decoded (Option.some.inj taken)
  cases first with
  | some datagram =>
      cases later
      exact ⟨afterFirst, nofun⟩
  | none =>
      rw [receivedFrom, List.append_nil] at afterFirst
      have service := serviceReady_decoded h received rounds
      rcases Run.bind_eq_some later with ⟨_, e₂, serviced, later⟩ | ⟨error, failed, rfl⟩
      swap
      · refine ⟨?_, nofun⟩
        rw [receivedFrom, List.append_nil]
        exact service _ _ _ failed afterFirst
      have afterService := service _ _ _ serviced afterFirst
      rcases Run.bind_eq_some later with ⟨second, e₃, taken, ending⟩ | ⟨error, failed, rfl⟩
      swap
      · exact ⟨takeFrame_decoded afterService (Option.some.inj failed), nofun⟩
      have afterSecond := takeFrame_decoded afterService (Option.some.inj taken)
      cases second with
      | some datagram =>
          cases ending
          exact ⟨afterSecond, nofun⟩
      | none =>
          obtain ⟨rfl, incomplete⟩ := takeFrame_none (Option.some.inj taken)
          change noFrame _ = some (result, e') at ending
          unfold noFrame at ending
          split at ending
          · cases ending
            exact ⟨afterSecond, nofun⟩
          · cases ending
            exact ⟨afterSecond, fun _ => incomplete⟩

theorem perform_decoded (h : tls.ReadLog log) {rounds : Nat} {op : CarrierOp}
    {received : List ReceivedDatagram}
    {e e' : TrojanDatagramExecution κ} {result : Except IoError (Option ReceivedDatagram)}
    (decoded : Decoded log received e) (performed : perform tls rounds op e = some (result, e')) :
    Decoded log (received ++ receivedFrom result) e' := by
  cases op with
  | send target payload =>
      have sent := (send_readView h rounds target payload).preserves (Decoded.of_view received)
      rcases Run.bind_eq_some performed with ⟨_, e₁, returned, last⟩ | ⟨error, failed, rfl⟩
      · cases last
        rw [receivedFrom, List.append_nil]
        exact sent _ _ _ returned decoded
      · rw [receivedFrom, List.append_nil]
        exact sent _ _ _ failed decoded
  | receive outputLen => exact (receive_decoded h decoded performed).1

/-! ### The association -/

/-- The datagram whose frame an operation adds to the queue, if it adds one. -/
def sentBy (e : TrojanDatagramExecution κ) : CarrierOp → List (Target × Bytes)
  | .send target payload =>
      if (admittedBy e (.send target payload)).isEmpty then [] else [(target, payload)]
  | .receive _ => []

/-- Sends and receives in any order: the datagrams sent, those received, and the execution
reached. -/
inductive CarrierHistory (tls : Rustls κ) (start : TrojanDatagramExecution κ) :
    List (Target × Bytes) → List ReceivedDatagram → TrojanDatagramExecution κ → Prop where
  | start : CarrierHistory tls start [] [] start
  | step {sent : List (Target × Bytes)} {received : List ReceivedDatagram}
      {e e' : TrojanDatagramExecution κ}
      {op : CarrierOp} {rounds : Nat} {result : Except IoError (Option ReceivedDatagram)} :
      CarrierHistory tls start sent received e → perform tls rounds op e = some (result, e') →
      CarrierHistory tls start (sent ++ sentBy e op) (received ++ receivedFrom result) e'

theorem CarrierHistory.decoded {start e : TrojanDatagramExecution κ} {sent : List (Target × Bytes)}
    {received : List ReceivedDatagram} (h : tls.ReadLog log)
    (history : CarrierHistory tls start sent received e)
    (empty : Decoded log [] start) : Decoded log received e := by
  induction history with
  | start => exact empty
  | step _ performed ih => exact perform_decoded h ih performed

/-- The frame an operation adds is that of the datagram it sends. -/
theorem admittedBy_frames (e : TrojanDatagramExecution κ) (op : CarrierOp) :
    (sentBy e op).mapM (fun d => encodeUdpFrame d.1 d.2) = .ok (admittedBy e op) := by
  cases op with
  | receive outputLen => rfl
  | send target payload =>
      unfold sentBy
      cases encoded : encodeUdpFrame target payload with
      | error error =>
          simp only [admittedBy, encoded]
          rfl
      | ok frame =>
          rcases enqueue_cases frame e with ⟨error, refused⟩ | ⟨-, -, admitted⟩
          · simp only [admittedBy, encoded, refused]
            rfl
          · simp only [admittedBy, encoded, admitted, List.isEmpty_cons,
              Bool.false_eq_true, if_false,
              List.mapM_cons, List.mapM_nil]
            rfl

/-- A send that succeeded has sent its datagram. -/
theorem sentBy_of_ok {rounds : Nat} {target : Target} {payload : Bytes}
    {e e' : TrojanDatagramExecution κ}
    (performed : perform tls rounds (.send target payload) e = some (.ok none, e')) :
    sentBy e (.send target payload) = [(target, payload)] := by
  rcases Run.bind_eq_some performed with ⟨_, e₁, sent, -⟩ | ⟨error, -, failed⟩
  swap
  · cases failed
  unfold send at sent
  cases encoded : encodeUdpFrame target payload with
  | error error =>
      rw [encoded] at sent
      cases sent
  | ok frame =>
      rw [encoded] at sent
      rcases Run.bind_eq_some sent with ⟨_, e₂, queued, -⟩ | ⟨error, -, failed⟩
      swap
      · cases failed
      rcases enqueue_cases frame e with ⟨error, refused⟩ | ⟨-, -, admitted⟩
      · cases (Option.some.inj queued).symm.trans refused
      · simp [sentBy, admittedBy, encoded, admitted]

/-- The frames of the datagrams sent went into the queue, in order. -/
theorem CarrierHistory.queued {start e : TrojanDatagramExecution (κ × Bytes)}
    {sent : List (Target × Bytes)}
    {received : List ReceivedDatagram} {preface : Bytes}
    (history : CarrierHistory tls.recording start sent received e)
    (opened : QueueInvariant preface start) :
    ∃ frames, sent.mapM (fun d => encodeUdpFrame d.1 d.2) = .ok frames ∧
      QueueInvariant (preface ++ frames.flatten) e := by
  induction history with
  | start => exact ⟨[], rfl, by simpa using opened⟩
  | @step sent received e e' op rounds result _ performed ih =>
      obtain ⟨frames, encoded, queue⟩ := ih
      refine ⟨frames ++ admittedBy e op, ?_, ?_⟩
      · rw [List.mapM_append, encoded, admittedBy_frames e op]
        rfl
      · rw [List.flatten_append, ← List.append_assoc]
        exact perform_invariant tls queue performed

theorem encodes_of_mapM {datagrams : List (Target × Bytes)} {frames : List Bytes}
    (encoded : datagrams.mapM (fun d => encodeUdpFrame d.1 d.2) = .ok frames) :
    List.Forall₂ udpFraming.Encodes datagrams frames := by
  induction datagrams generalizing frames with
  | nil =>
      cases encoded
      exact .nil
  | cons d datagrams ih =>
      rw [List.mapM_cons] at encoded
      cases first : encodeUdpFrame d.1 d.2 with
      | error error =>
          rw [first] at encoded
          cases encoded
      | ok frame =>
          rw [first] at encoded
          cases rest : datagrams.mapM (fun d => encodeUdpFrame d.1 d.2) with
          | error error =>
              rw [rest] at encoded
              cases encoded
          | ok later =>
              rw [rest] at encoded
              cases encoded
              exact .cons (encodes_encodeUdpFrame first) (ih rest)

/-- The plaintext that was read from a recorded carrier. -/
def plaintextRead (e : TrojanDatagramExecution ((κ × Bytes) × Bytes)) :
    Bytes := e.tls.connection.1.2

/-- Opening reads nothing. -/
theorem openExecution_readView (h : tls.ReadLog log) {rounds : Nat}
    {verifier : TrojanVerifier} {t : κ}
    {result : Except IoError Unit} {start : TrojanDatagramExecution κ}
    (opened : openExecution tls rounds verifier t = some (result, start)) :
    readView log start = (log t, []) :=
  ((enqueue_readView _).bind fun _ => drainPending_readView h rounds) _ _ _ opened

/-- After any sends and receives, in any order and whatever they returned: the writer accepted the
preface and a front of the frames of the datagrams sent, the rest being queued, so that a peer which
reads it in any cuts gets a front of them; the datagrams received are those of the plaintext read,
and if that is a front of frames a peer made, they are a front of its datagrams. A receive that
returns nothing leaves no complete frame behind. -/
theorem carrier_is_faithful {tls : Rustls κ} {rounds : Nat} {verifier : TrojanVerifier} {t : κ}
    {start e : TrojanDatagramExecution ((κ × Bytes) × Bytes)} {sent : List (Target × Bytes)}
    {received : List ReceivedDatagram}
    (opened : openExecution tls.delivering.recording rounds verifier ((t, []), []) =
      some (.ok (), start))
    (history : CarrierHistory tls.delivering.recording start sent received e) :
    (∃ frames, sent.mapM (fun d => encodeUdpFrame d.1 d.2) = .ok frames ∧
      accepted e ++ unsent e.pending = encodeUdpAssociateRequest verifier ++ frames.flatten ∧
      ∀ ops, encodeUdpAssociateRequest verifier ++ appended ops <+: accepted e →
        ∃ k rest, udpFraming.run ops [] = .ok (sent.take k, rest) ∧
          (frames.take k).flatten ++ rest = appended ops) ∧
    udpFraming.Decodes (received.map pairOf) (plaintextRead e) e.rx ∧
    (∀ served frames, List.Forall₂ udpFraming.Encodes served frames →
      plaintextRead e <+: frames.flatten →
      ∃ k, received.map pairOf = served.take k ∧ (frames.take k).flatten ++ e.rx =
        plaintextRead e) ∧
    ∀ rounds outputLen e', perform tls.delivering.recording rounds (.receive outputLen) e =
      some (.ok none, e') →
      parseUdpFrame e'.rx = .ok none := by
  have log := (Rustls.ReadLog.delivering tls).recording
  have untouched := openExecution_readView log opened
  obtain ⟨nothing, empty⟩ := Prod.mk.inj untouched
  have fresh : Decoded (fun s : (κ × Bytes) × Bytes => s.1.2) [] start := by
    unfold Decoded
    rw [nothing, empty]
    exact .nil
  have decoded := history.decoded log fresh
  obtain ⟨frames, encoded, queue⟩ :=
    history.queued (QueueInvariant.after_open tls.delivering opened rfl)
  refine ⟨⟨frames, encoded, queue.conserved, ?_⟩, decoded, ?_, ?_⟩
  · intro ops arriving
    have whole : encodeUdpAssociateRequest verifier ++ appended ops <+:
        encodeUdpAssociateRequest verifier ++ frames.flatten := by
      rw [← queue.conserved]
      exact arriving.trans (List.prefix_append _ _)
    have front : [] ++ appended ops <+: frames.flatten := (List.prefix_append_right_inj _).mp whole
    exact Framing.run_delivers (encodes_of_mapM encoded) ops front
  · intro served frames encodes arrived
    exact decoded.of_encoded encodes arrived
  · intro rounds outputLen e' performed
    exact (receive_decoded log decoded performed).2 rfl

/-- An execution whose peer has sent one datagram, after its preface was written. -/
def openedServing : TrojanDatagramExecution ((Bytes × Bytes) × Bytes) :=
  { tls :=
      { connection :=
          (([1, 1, 2, 3, 4, 0, 53, 0, 1, 13, 10, 7], []),
            encodeUdpAssociateRequest zeroVerifier) } }

/-- One datagram is sent and the one of the peer is received. -/
theorem carrier_is_faithful_example : ∃ e,
    CarrierHistory serving.delivering.recording openedServing
      [(⟨.ip (.v4 ⟨9, 9, 9, 9⟩), 53, by decide⟩, [5])]
      [⟨⟨.ip (.v4 ⟨1, 2, 3, 4⟩), 53, by decide⟩, [7]⟩] e ∧
    udpFraming.Decodes [(⟨.ip (.v4 ⟨1, 2, 3, 4⟩), 53, by decide⟩, [7])] (plaintextRead e) e.rx := by
  have opened : openExecution serving.delivering.recording 2 zeroVerifier
      (([1, 1, 2, 3, 4, 0, 53, 0, 1, 13, 10, 7], []), []) = some (.ok (), openedServing) := rfl
  have sent :
    ∃ e, perform serving.delivering.recording 3 (.send ⟨.ip (.v4 ⟨9, 9, 9, 9⟩), 53, by decide⟩ [5])
      openedServing = some (.ok none, e) ∧
      ∃ e', perform serving.delivering.recording 3 (.receive 65535) e =
        some (.ok (some ⟨⟨.ip (.v4 ⟨1, 2, 3, 4⟩), 53, by decide⟩, [7]⟩), e') := ⟨_, rfl, _, rfl⟩
  obtain ⟨e, sending, e', receiving⟩ := sent
  have history := (CarrierHistory.start.step sending).step receiving
  rw [sentBy_of_ok sending] at history
  exact ⟨e', history, (carrier_is_faithful opened history).2.1⟩

end Commeatus.Daemon.TrojanDatagram
