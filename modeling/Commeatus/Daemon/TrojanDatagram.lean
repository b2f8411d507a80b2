import Commeatus.Daemon.Trojan
import Commeatus.Daemon.Datagram
import Commeatus.Transport.Rustls

/-!
The Trojan UDP carrier (`daemon/src/trojan_datagram.rs`): one TLS connection
that carries the datagrams of an association as frames, with a bounded send
queue in front of the TLS writer and a receive buffer behind the TLS reader.
-/

namespace Commeatus.Daemon.TrojanDatagram

open Commeatus.Lib Commeatus.Transport Trojan

def maxPendingFrames : Nat := 64
def maxPendingBytes : Nat := 512 * 1024
def maxRxBytes : Nat := 128 * 1024
def tlsPlaintextReadChunk : Nat := 16 * 1024

structure PendingFrame where
  bytes : Bytes
  offset : Nat

/-- The part of a frame the TLS writer has not accepted yet. -/
def PendingFrame.remaining (frame : PendingFrame) : Bytes := frame.bytes.drop frame.offset

/-- `registry` says whether a registry handle is held. -/
structure TrojanDatagramExecution (κ : Type) where
  tls : TlsFramedSession κ
  pending : List PendingFrame := []
  pendingBytes : Nat := 0
  rx : Bytes := []
  registry : Bool := false
  token : Option Nat := none

variable {κ : Type} (tls : Rustls κ)

/-! ### The send queue -/

def enqueue (bytes : Bytes) : IoM (TrojanDatagramExecution κ) Unit := fun e =>
  if maxPendingFrames ≤ e.pending.length then
    (.error ⟨.quotaExceeded, "Trojan UDP pending frame limit 64 reached"⟩, e)
  else if usizeMax < e.pendingBytes + bytes.length then
    (.error ⟨.outOfMemory, "Trojan UDP pending byte count overflow"⟩, e)
  else if maxPendingBytes < e.pendingBytes + bytes.length then
    (.error ⟨.quotaExceeded, "Trojan UDP pending byte limit 524288 reached"⟩, e)
  else
    (.ok (), { e with
      pendingBytes := e.pendingBytes + bytes.length
      pending := e.pending ++ [⟨bytes, 0⟩] })

/-- The error of a writer that accepts nothing. -/
def zeroWrite : IoError := ⟨.writeZero, "framed TLS accepted zero Trojan UDP plaintext bytes"⟩

/-- One round of the loop in `drain_pending`. The byte counter is lowered by a saturating
subtraction. -/
def drainRound (e : TrojanDatagramExecution κ) :
    Round (Except IoError Unit) × TrojanDatagramExecution κ :=
  match e.pending with
  | [] => (.done (.ok ()), e)
  | frame :: rest =>
      if frame.remaining.isEmpty then (.again, { e with pending := rest })
      else
        match TlsFramedSession.writePlaintext tls frame.remaining e.tls with
        | (.ok 0, session) => (.done (.error zeroWrite), { e with tls := session })
        | (.ok written, session) =>
            let frame := { frame with offset := frame.offset + written }
            (.again, { e with
              tls := session
              pendingBytes := e.pendingBytes - written
              pending := if frame.offset = frame.bytes.length then rest else frame :: rest })
        | (.error error, session) =>
            if error.kind = .wouldBlock then (.done (.ok ()), { e with tls := session })
            else if error.kind = .interrupted then (.again, { e with tls := session })
            else (.done (.error error), { e with tls := session })

def drainPending (rounds : Nat) : Run (TrojanDatagramExecution κ) Unit :=
  Run.loop rounds (drainRound tls)

/-- `TrojanDatagramProvider::open`, on an established connection. -/
def openExecution (rounds : Nat) (verifier : TrojanVerifier) (connection : κ) :
    Option (Except IoError Unit × TrojanDatagramExecution κ) :=
  (do
    Run.ofIo (enqueue (encodeUdpAssociateRequest verifier))
    drainPending tls rounds : Run (TrojanDatagramExecution κ) Unit) { tls := { connection } }

/-! ### Readiness and the receive buffer -/

/-- Work on the TLS session of an execution. -/
def onTls {α : Type} (x : Run (TlsFramedSession κ) α) : Run (TrojanDatagramExecution κ) α :=
  Run.zoom TrojanDatagramExecution.tls (fun tls e => { e with tls }) x

def refreshReadiness : Run (TrojanDatagramExecution κ) Unit := fun e =>
  match e.registry, e.token with
  | true, some _ => onTls (Run.ofIo (TlsFramedSession.refreshReadiness tls)) e
  | false, none => some (.ok (), e)
  | _, _ => some (.error ⟨.other, "Trojan UDP readiness registration state is inconsistent"⟩, e)

/-- One round of the loop in `read_plaintext_into_rx`. -/
def readPlaintextRound (e : TrojanDatagramExecution κ) :
    Round (Except IoError Unit) × TrojanDatagramExecution κ :=
  if maxRxBytes ≤ e.rx.length then
    (.done (.error ⟨.invalidData, "Trojan UDP receive buffer exceeds 131072 bytes"⟩), e)
  else
    match TlsFramedSession.readPlaintext tls
        (min (maxRxBytes - e.rx.length) tlsPlaintextReadChunk) e.tls with
    | (.ok [], session) => (.done (.ok ()), { e with tls := session })
    | (.ok bytes, session) => (.again, { e with tls := session, rx := e.rx ++ bytes })
    | (.error error, session) =>
        if error.kind = .wouldBlock then (.done (.ok ()), { e with tls := session })
        else if error.kind = .interrupted then (.again, { e with tls := session })
        else (.done (.error error), { e with tls := session })

def readPlaintextIntoRx (rounds : Nat) : Run (TrojanDatagramExecution κ) Unit :=
  Run.loop rounds (readPlaintextRound tls)

/-- `service_ready`. -/
def serviceReady (rounds : Nat) : Run (TrojanDatagramExecution κ) Unit := do
  drainPending tls rounds
  onTls (TlsFramedSession.serviceIo tls rounds)
  drainPending tls rounds
  readPlaintextIntoRx tls rounds
  refreshReadiness tls

/-- The in-place shift of `take_frame`: `copy_within(consumed.., 0)`, then `truncate`. -/
def shiftOut (rx : Bytes) (consumed : Nat) : Bytes :=
  (rx.drop consumed ++ rx.drop (rx.length - consumed)).take (rx.length - consumed)

/-- `take_frame` with an output buffer of `outputLen` bytes. -/
def takeFrame (outputLen : Nat) :
    IoM (TrojanDatagramExecution κ) (Option ReceivedDatagram) := fun e =>
  match parseUdpFrame e.rx with
  | .error error => (.error error, e)
  | .ok none => (.ok none, e)
  | .ok (some frame) =>
      let payloadLen := frame.consumed - frame.payloadStart
      if outputLen < payloadLen then
        (.error ⟨.invalidInput, "Trojan UDP output buffer is " ++
          String.ofList (decimal outputLen) ++
          " bytes but frame payload requires " ++ String.ofList (decimal payloadLen)⟩, e)
      else
        (.ok (some ⟨frame.source, (e.rx.drop frame.payloadStart).take payloadLen⟩),
          { e with rx := shiftOut e.rx frame.consumed })

/-- No frame is taken where none is complete, and nothing changes. -/
theorem takeFrame_none {outputLen : Nat} {e e' : TrojanDatagramExecution κ}
    (taken : takeFrame outputLen e = (.ok none, e')) : e' = e ∧ parseUdpFrame e.rx = .ok none := by
  unfold takeFrame at taken
  split at taken
  · cases taken
  · rename_i parsed
    cases taken
    exact ⟨rfl, parsed⟩
  · dsimp only at taken
    split at taken
    · cases taken
    · cases taken

/-! ### Sending and receiving -/

def send (rounds : Nat) (target : Target) (payload : Bytes) :
    Run (TrojanDatagramExecution κ) Unit :=
  match encodeUdpFrame target payload with
  | .error e => Run.fail e
  | .ok frame => do
      Run.ofIo (enqueue frame)
      drainPending tls rounds
      refreshReadiness tls

/-- The end of `receive`: nothing was framed, and the carrier may have closed. -/
def noFrame : Run (TrojanDatagramExecution κ) (Option ReceivedDatagram) := fun e =>
  if e.tls.remoteEof then
    some (.error ⟨.unexpectedEof, "Trojan UDP TLS carrier closed without another complete frame"⟩,
      e)
  else some (.ok none, e)

def receive (rounds outputLen : Nat) :
    Run (TrojanDatagramExecution κ) (Option ReceivedDatagram) := do
  match ← Run.ofIo (takeFrame outputLen) with
  | some datagram => pure (some datagram)
  | none =>
      serviceReady tls rounds
      match ← Run.ofIo (takeFrame outputLen) with
      | some datagram => pure (some datagram)
      | none => noFrame

/-! ### The execution object -/

/-- The registry handle is duplicated as well; that call is taken to succeed. -/
def registerReadiness (tokens : List Nat) : IoM (TrojanDatagramExecution κ) Unit := fun e =>
  if tokens.length ≠ 1 then
    (.error ⟨.invalidInput, "Trojan UDP execution requires exactly one readiness token, got " ++
      String.ofList (decimal tokens.length)⟩, e)
  else if e.registry || e.token.isSome then
    (.error ⟨.alreadyExists, "Trojan UDP execution is already registered"⟩, e)
  else
    match TlsFramedSession.registerReadiness tls e.tls with
    | (.error error, session) => (.error error, { e with tls := session })
    | (.ok (), session) =>
        (.ok (), { e with tls := session, registry := true, token := tokens.head? })

/-- The carrier as an execution object; nothing outside of it takes part. -/
def execution {ω : Type} (rounds : Nat) : DatagramExecution (TrojanDatagramExecution κ) ω where
  readinessSourceCount _ := 1
  registerReadiness tokens := IoM.beside (registerReadiness tls tokens)
  send target payload := Run.zoom Prod.fst (fun e s => (e, s.2)) (send tls rounds target payload)
  receive outputLen := Run.zoom Prod.fst (fun e s => (e, s.2)) (receive tls rounds outputLen)

/-- `TrojanDatagramProvider::open` after the connection was made. -/
def openDatagram {ω : Type} (rounds : Nat) (verifier : TrojanVerifier) (connection : κ) :
    Run ω (TrojanDatagramExecution κ) := fun world =>
  match openExecution tls rounds verifier connection with
  | none => none
  | some (.error e, _) => some (.error e, world)
  | some (.ok (), execution) => some (.ok execution, world)

/-! ### Receiving undoes encoding -/

/-- Chunks of plaintext are appended to the receive buffer and frames are taken with a buffer of
65535 bytes: the datagrams returned and the execution after it. -/
def readerRun : List (StreamOp UInt8) → TrojanDatagramExecution κ →
    Except IoError (List ReceivedDatagram × TrojanDatagramExecution κ)
  | [], e => .ok ([], e)
  | .append chunk :: ops, e => readerRun ops { e with rx := e.rx ++ chunk }
  | .take :: ops, e =>
      match takeFrame 65535 e with
      | (.error error, _) => .error error
      | (.ok none, e) => readerRun ops e
      | (.ok (some datagram), e) =>
          (readerRun ops e).map fun out => (datagram :: out.1, out.2)

/-- The shift keeps exactly the tail. -/
theorem shiftOut_eq_drop (rx : Bytes) (consumed : Nat) :
    shiftOut rx consumed = rx.drop consumed := by
  unfold shiftOut
  exact List.take_left' (by simp)

/-- The largest payload fits the buffer, so taking a frame is what the framing does. -/
theorem takeFrame_eq (e : TrojanDatagramExecution κ) :
    takeFrame 65535 e =
      ((udpFraming.take e.rx).1.map (Option.map .ofPair),
        { e with rx := (udpFraming.take e.rx).2 }) := by
  have decodes : udpFraming.decode e.rx = decodeFrame e.rx := rfl
  unfold takeFrame Framing.take
  rw [decodes]
  cases parsed : parseUdpFrame e.rx with
  | error error => simp [decodeFrame, parsed, Except.map]
  | ok result =>
      cases result with
      | none => simp [decodeFrame, parsed, Except.map]
      | some frame =>
          have fits := (parseUdpFrame_le parsed).2.2
          simp [decodeFrame, parsed, Except.map, not_lt.mpr fits, shiftOut_eq_drop,
            ReceivedDatagram.ofPair]

/-- The reader of an execution is the reader of its framing. -/
theorem readerRun_eq (ops : List (StreamOp UInt8)) (e : TrojanDatagramExecution κ) :
    readerRun ops e = (udpFraming.run ops e.rx).map fun out =>
      (out.1.map .ofPair, { e with rx := out.2 }) := by
  induction ops generalizing e with
  | nil => rfl
  | cons op ops ih =>
      cases op with
      | append chunk => exact ih { e with rx := e.rx ++ chunk }
      | take =>
          unfold readerRun Framing.run
          rw [takeFrame_eq]
          rcases taken : udpFraming.take e.rx with ⟨error | _ | datagram, rx⟩
          · rfl
          · exact ih { e with rx }
          · simp only [Except.map, Option.map_some]
            rw [ih { e with rx }]
            cases udpFraming.run ops rx <;> rfl

/-- Encodable datagrams have frames, one each. -/
theorem mapM_encodeUdpFrame {datagrams : List (Target × Bytes)}
    (encodable : ∀ d ∈ datagrams, Encodable d) :
    ∃ frames, datagrams.mapM (fun d => encodeUdpFrame d.1 d.2) = .ok frames ∧
      List.Forall₂ udpFraming.Encodes datagrams frames := by
  induction datagrams with
  | nil => exact ⟨[], rfl, .nil⟩
  | cons d datagrams ih =>
      obtain ⟨frame, encoded⟩ := encodeUdpFrame_ok (encodable d List.mem_cons_self)
      obtain ⟨frames, rest, encodes⟩ := ih fun d' mem => encodable d' (List.mem_cons_of_mem d mem)
      refine ⟨frame :: frames, ?_, .cons (encodes_encodeUdpFrame encoded) encodes⟩
      rw [List.mapM_cons, encoded, rest]
      rfl

/-- Whatever the cuts and wherever frames are taken, the datagrams returned are a prefix of those
encoded and the buffer holds exactly the rest of what arrived; once all has arrived, taking on
returns all of them. A verdict of the frame parser is final on arbitrary bytes. -/
theorem udp_stream_decode_undoes_encode {datagrams : List (Target × Bytes)}
    (encodable : ∀ d ∈ datagrams, Encodable d) :
    (∃ frames, datagrams.mapM (fun d => encodeUdpFrame d.1 d.2) = .ok frames ∧
      ∀ (e : TrojanDatagramExecution κ) (ops : List (StreamOp UInt8)), e.rx = [] →
        appended ops <+: frames.flatten →
        (∃ k e', readerRun ops e = .ok ((datagrams.take k).map .ofPair, e') ∧
          (frames.take k).flatten ++ e'.rx = appended ops) ∧
        (appended ops = frames.flatten → ∀ n, datagrams.length ≤ n →
          ∃ e', readerRun (ops ++ List.replicate n .take) e = .ok (datagrams.map .ofPair, e') ∧
            e'.rx = [])) ∧
    ∀ data more, parseUdpFrame data ≠ .ok none → parseUdpFrame (data ++ more) =
      parseUdpFrame data := by
  refine ⟨?_, fun data more verdict => parseUdpFrame_append verdict more⟩
  obtain ⟨frames, encoded, encodes⟩ := mapM_encodeUdpFrame encodable
  refine ⟨frames, encoded, fun e ops empty arriving => ?_⟩
  have start : e.rx ++ appended ops <+: frames.flatten := by rwa [empty]
  obtain ⟨k, rest, delivered, kept⟩ := Framing.run_delivers encodes ops start
  rw [empty, List.nil_append] at kept
  refine ⟨⟨k, { e with rx := rest }, ?_, kept⟩, fun complete n enough => ?_⟩
  · rw [readerRun_eq, delivered]
    rfl
  · -- What is left in the buffer are the frames from the `k`-th on.
    have remaining : rest = (frames.drop k).flatten := by
      rw [complete, ← List.take_append_drop k frames, List.flatten_append] at kept
      simpa using kept
    have later : List.Forall₂ udpFraming.Encodes (datagrams.drop k) (frames.drop k) :=
      List.forall₂_drop k encodes
    have all := Framing.run_take_all later (n := n) (by rw [List.length_drop]; omega)
    refine ⟨{ e with rx := [] }, ?_, rfl⟩
    rw [readerRun_eq, Framing.run_append ops _ delivered, remaining, all]
    simp [Except.map]

theorem udp_stream_decode_undoes_encode_example :
    ∃ frames e', [((⟨.ip (.v4 ⟨1, 2, 3, 4⟩), 53, by decide⟩ : Target), ([7] : Bytes))].mapM
        (fun d => encodeUdpFrame d.1 d.2) = .ok frames ∧
      readerRun (.append frames.flatten :: List.replicate 1 .take)
          ({ tls := { connection := () } } : TrojanDatagramExecution Unit) =
        .ok ([⟨⟨.ip (.v4 ⟨1, 2, 3, 4⟩), 53, by decide⟩, [7]⟩], e') := by
  have encodable : ∀ d ∈ [((⟨.ip (.v4 ⟨1, 2, 3, 4⟩), 53, by decide⟩ : Target), ([7] : Bytes))],
      Encodable d := by
    intro d mem
    rw [List.mem_singleton.mp mem]
    refine ⟨?_, by decide⟩
    intro name isDomain
    cases isDomain
  obtain ⟨⟨frames, encoded, reads⟩, -⟩ := udp_stream_decode_undoes_encode (κ := Unit) encodable
  have arrived : appended [StreamOp.append frames.flatten] = frames.flatten := by simp [appended]
  obtain ⟨-, all⟩ := reads { tls := { connection := () } } [.append frames.flatten] rfl
    (by rw [arrived])
  obtain ⟨e', result, -⟩ := all arrived 1 le_rfl
  exact ⟨frames, e', encoded, result⟩

/-! ### The send queue is a bounded FIFO -/

/-- What the pending frames still have to deliver. -/
def unsent (pending : List PendingFrame) : Bytes := pending.flatMap PendingFrame.remaining

/-- The bytes the recorded writer has accepted. -/
def accepted (e : TrojanDatagramExecution (κ × Bytes)) : Bytes := e.tls.connection.2

/-- `total` has gone into the queue: what the writer accepted and what is unsent make it up, the
counter is exact, and the bounds hold. -/
structure QueueInvariant (total : Bytes) (e : TrojanDatagramExecution (κ × Bytes)) : Prop where
  conserved : accepted e ++ unsent e.pending = total
  counted : e.pendingBytes = (unsent e.pending).length
  frames : e.pending.length ≤ maxPendingFrames
  bytes : e.pendingBytes ≤ maxPendingBytes

theorem unsent_cons (frame : PendingFrame) (rest : List PendingFrame) :
    unsent (frame :: rest) = frame.remaining ++ unsent rest := by
  simp [unsent]

/-- An admitted frame joins the end of the queue; a refused one changes nothing. -/
theorem enqueue_cases (bytes : Bytes) (e : TrojanDatagramExecution κ) :
    (∃ error, enqueue bytes e = (.error error, e)) ∨
      (e.pending.length < maxPendingFrames ∧ e.pendingBytes + bytes.length ≤ maxPendingBytes ∧
        enqueue bytes e = (.ok (), { e with
          pendingBytes := e.pendingBytes + bytes.length
          pending := e.pending ++ [⟨bytes, 0⟩] })) := by
  unfold enqueue
  split
  · exact .inl ⟨_, rfl⟩
  split
  · exact .inl ⟨_, rfl⟩
  split
  · exact .inl ⟨_, rfl⟩
  · exact .inr ⟨by omega, by omega, rfl⟩

theorem QueueInvariant.after_enqueue {total bytes : Bytes}
    {e e' : TrojanDatagramExecution (κ × Bytes)}
    (h : QueueInvariant total e) (admitted : enqueue bytes e = (.ok (), e')) :
    QueueInvariant (total ++ bytes) e' := by
  rcases enqueue_cases bytes e with ⟨error, refused⟩ | ⟨room, fits, result⟩
  · rw [refused] at admitted
    cases admitted
  · rw [result] at admitted
    cases admitted
    have appendedFrame : unsent (e.pending ++ [⟨bytes, 0⟩]) = unsent e.pending ++ bytes := by
      simp [unsent, PendingFrame.remaining]
    refine ⟨?_, ?_, ?_, fits⟩
    · dsimp only
      rw [appendedFrame, ← h.conserved, List.append_assoc]
      rfl
    · dsimp only
      rw [appendedFrame, List.length_append, h.counted]
    · dsimp only
      rw [List.length_append]
      exact room

/-- What one round of the drain loop can do: stop, drop a finished frame, or write. -/
theorem drainRound_cases (e : TrojanDatagramExecution κ) :
    (e.pending = [] ∧ drainRound tls e = (.done (.ok ()), e)) ∨
    ∃ frame rest, e.pending = frame :: rest ∧
      ((frame.remaining = [] ∧ drainRound tls e = (.again, { e with pending := rest })) ∨
      (frame.remaining ≠ [] ∧ ∃ error connection,
        tls.write frame.remaining e.tls.connection = (.error error, connection) ∧
          (drainRound tls e).2 = { e with tls := { e.tls with connection } }) ∨
      (frame.remaining ≠ [] ∧ ∃ connection,
        tls.write frame.remaining e.tls.connection = (.ok 0, connection) ∧
          drainRound tls e =
            (.done (.error zeroWrite), { e with tls := { e.tls with connection } })) ∨
      (frame.remaining ≠ [] ∧ ∃ written connection, 0 < written ∧
        tls.write frame.remaining e.tls.connection = (.ok written, connection) ∧
          drainRound tls e = (.again, { e with
            tls := { e.tls with connection }
            pendingBytes := e.pendingBytes - written
            pending := if frame.offset + written = frame.bytes.length then rest
              else { frame with offset := frame.offset + written } :: rest }))) := by
  cases queue : e.pending with
  | nil => exact .inl ⟨rfl, by simp only [drainRound, queue]⟩
  | cons frame rest =>
      refine .inr ⟨frame, rest, rfl, ?_⟩
      by_cases finished : frame.remaining = []
      · exact .inl ⟨finished, by simp [drainRound, queue, finished]⟩
      refine .inr ?_
      have notEmpty : frame.remaining.isEmpty = false := by simpa using finished
      match written : tls.write frame.remaining e.tls.connection with
      | (.error error, connection) =>
          refine .inl ⟨finished, error, connection, rfl, ?_⟩
          simp only [drainRound, queue, notEmpty, TlsFramedSession.writePlaintext, written]
          by_cases blocked : error.kind = .wouldBlock
          · simp [blocked]
          · by_cases interrupted : error.kind = .interrupted <;> simp [interrupted, blocked]
      | (.ok 0, connection) =>
          refine .inr (.inl ⟨finished, connection, rfl, ?_⟩)
          simp [drainRound, queue, notEmpty, TlsFramedSession.writePlaintext, written]
      | (.ok (n + 1), connection) =>
          refine .inr (.inr ⟨finished, n + 1, connection, Nat.succ_pos n, rfl, ?_⟩)
          simp [drainRound, queue, notEmpty, TlsFramedSession.writePlaintext, written]

/-- Writing part of the front frame shortens what is unsent by exactly that part. -/
theorem unsent_after_write (frame : PendingFrame) (rest : List PendingFrame) (written : Nat) :
    frame.remaining.take written ++
      unsent (if frame.offset + written = frame.bytes.length then rest
        else { frame with offset := frame.offset + written } :: rest) = unsent (frame :: rest) := by
  have tail : frame.remaining.drop written = frame.bytes.drop (frame.offset + written) := by
    rw [PendingFrame.remaining, List.drop_drop]
  split
  · rename_i whole
    have all : frame.remaining.drop written = [] := by
      rw [tail, whole, List.drop_length]
    have front : frame.remaining.take written = frame.remaining := by
      have := List.take_append_drop written frame.remaining
      rwa [all, List.append_nil] at this
    rw [front, unsent_cons]
  · rw [unsent_cons, unsent_cons, ← List.append_assoc]
    have later : ({ frame with offset := frame.offset + written } : PendingFrame).remaining =
        frame.remaining.drop written := tail.symm
    rw [later, List.take_append_drop]

/-- A round keeps the invariant. -/
theorem QueueInvariant.after_round {total : Bytes} {e : TrojanDatagramExecution (κ × Bytes)}
    (h : QueueInvariant total e) : QueueInvariant total (drainRound tls.recording e).2 := by
  rcases drainRound_cases tls.recording e with ⟨-, stop⟩ | ⟨frame, rest, queue, cases⟩
  · rw [stop]
    exact h
  have sent : unsent e.pending = frame.remaining ++ unsent rest := by rw [queue, unsent_cons]
  rcases cases with ⟨finished, popped⟩ | ⟨-, error, connection, failed, after⟩ |
    ⟨-, connection, zero, after⟩ | ⟨-, written, connection, -, wrote, after⟩
  · -- A finished frame has nothing unsent.
    rw [finished, List.nil_append] at sent
    have fewer : rest.length ≤ e.pending.length := by simp [queue]
    rw [popped]
    exact ⟨by rw [← h.conserved, sent]; rfl, by rw [← sent]; exact h.counted,
      fewer.trans h.frames, h.bytes⟩
  · have log : connection.2 = accepted e := by
      simp only [Rustls.recording] at failed
      split at failed
      · cases failed
      · cases failed
        rfl
    rw [after]
    exact ⟨by rw [← h.conserved, ← log]; rfl, h.counted, h.frames, h.bytes⟩
  · have log : connection.2 = accepted e := by
      simp only [Rustls.recording] at zero
      split at zero
      · cases zero
        simp [accepted]
      · cases zero
    rw [after]
    exact ⟨by rw [← h.conserved, ← log]; rfl, h.counted, h.frames, h.bytes⟩
  · have bound : written ≤ frame.remaining.length := tls.recording.write_le wrote
    have log : connection.2 = accepted e ++ frame.remaining.take written := by
      simp only [Rustls.recording] at wrote
      split at wrote
      · cases wrote
        rfl
      · cases wrote
    have unsentAfter := unsent_after_write frame rest written
    rw [after]
    refine ⟨?_, ?_, ?_, (Nat.sub_le _ _).trans h.bytes⟩
    · show connection.2 ++ _ = total
      rw [log, List.append_assoc, unsentAfter, ← queue, h.conserved]
    · have size := congrArg List.length unsentAfter
      rw [← queue, List.length_append, List.length_take, min_eq_left bound, ← h.counted] at size
      dsimp only
      omega
    · have shorter : (if frame.offset + written = frame.bytes.length then rest
          else { frame with offset := frame.offset + written } :: rest).length ≤
              e.pending.length := by
        rw [queue]
        split <;> simp
      exact shorter.trans h.frames

theorem QueueInvariant.after_drain {total : Bytes} {e : TrojanDatagramExecution (κ × Bytes)}
    (h : QueueInvariant total e) (rounds : Nat) :
    QueueInvariant total (iterate (drainRound tls.recording) rounds e).2 :=
  iterate_invariant (fun _ inv => inv.after_round tls) rounds h

/-- Steps on the send queue. A drain is given the number of rounds it has run, so that it can be
observed before it returns. -/
inductive QueueOp where
  | enqueue (bytes : Bytes)
  | drain (rounds : Nat)

/-- One step, with the frames admitted so far. -/
def playOp (s : TrojanDatagramExecution κ × List Bytes) :
    QueueOp → TrojanDatagramExecution κ × List Bytes
  | .enqueue bytes =>
      match enqueue bytes s.1 with
      | (.ok (), e) => (e, s.2 ++ [bytes])
      | (.error _, e) => (e, s.2)
  | .drain rounds => ((iterate (drainRound tls) rounds s.1).2, s.2)

def play (ops : List QueueOp) (s : TrojanDatagramExecution κ × List Bytes) :
    TrojanDatagramExecution κ × List Bytes :=
  ops.foldl (playOp tls) s

/-- The execution that `open` returns satisfies the invariant for the preface. -/
theorem QueueInvariant.after_open {rounds : Nat} {verifier : TrojanVerifier} {t : κ}
    {e : TrojanDatagramExecution (κ × Bytes)} {result : Except IoError Unit}
    (opened : openExecution tls.recording rounds verifier (t, []) = some (result, e))
    (ok : result = .ok ()) : QueueInvariant (encodeUdpAssociateRequest verifier) e := by
  subst ok
  have empty : QueueInvariant [] ({ tls := { connection := (t, []) } } :
      TrojanDatagramExecution (κ × Bytes)) :=
    ⟨rfl, rfl, Nat.zero_le _, Nat.zero_le _⟩
  unfold openExecution at opened
  match admitted : enqueue (encodeUdpAssociateRequest verifier)
      ({ tls := { connection := (t, []) } } : TrojanDatagramExecution (κ × Bytes)) with
  | (.error error, e₁) =>
      rw [Run.bind_of_error (show Run.ofIo _ _ = _ from congrArg some admitted)] at opened
      cases opened
  | (.ok (), e₁) =>
      rw [Run.bind_of_ok (show Run.ofIo _ _ = _ from congrArg some admitted)] at opened
      have preface := empty.after_enqueue admitted
      rw [List.nil_append] at preface
      unfold drainPending Run.loop at opened
      match drained : iterate (drainRound tls.recording) rounds e₁ with
      | (none, e₂) =>
          rw [drained] at opened
          cases opened
      | (some result, e₂) =>
          rw [drained] at opened
          cases opened
          have kept := preface.after_drain tls rounds
          rw [drained] at kept
          exact kept

theorem QueueInvariant.after_op {total : Bytes}
    {s : TrojanDatagramExecution (κ × Bytes) × List Bytes}
    (h : QueueInvariant (total ++ s.2.flatten) s.1) (op : QueueOp) :
    QueueInvariant (total ++ (playOp tls.recording s op).2.flatten)
      (playOp tls.recording s op).1 := by
  cases op with
  | enqueue bytes =>
      rcases enqueue_cases bytes s.1 with ⟨error, refused⟩ | ⟨-, -, admitted⟩
      · simp only [playOp, refused]
        exact h
      · have next := h.after_enqueue admitted
        simp only [playOp, admitted, List.flatten_append, List.flatten_singleton,
          ← List.append_assoc]
        exact next
  | drain rounds => exact h.after_drain tls rounds

theorem QueueInvariant.after_run {total : Bytes}
    {s : TrojanDatagramExecution (κ × Bytes) × List Bytes}
    (h : QueueInvariant (total ++ s.2.flatten) s.1) (ops : List QueueOp) :
    QueueInvariant (total ++ (play tls.recording ops s).2.flatten)
      (play tls.recording ops s).1 := by
  induction ops generalizing s with
  | nil => exact h
  | cons op ops ih => exact ih (h.after_op tls op)

/-- From the opened state on, at every point of every run: the bytes the TLS writer accepted and
the unsent remainders are the preface and the admitted frames in order, the counter is the exact
number of unsent bytes and is never lowered past zero, the bounds hold, and a refused frame changes
nothing. -/
theorem send_queue_is_bounded_fifo {rounds : Nat} {verifier : TrojanVerifier} {t : κ}
    {e : TrojanDatagramExecution (κ × Bytes)}
    (opened : openExecution tls.recording rounds verifier (t, []) = some (.ok (), e))
    (ops : List QueueOp) (s : TrojanDatagramExecution (κ × Bytes)) (admitted : List Bytes)
    (reached : play tls.recording ops (e, []) = (s, admitted)) :
    accepted s ++ unsent s.pending = encodeUdpAssociateRequest verifier ++ admitted.flatten ∧
      s.pendingBytes = (unsent s.pending).length ∧
      (∀ frame rest written connection, s.pending = frame :: rest →
        tls.recording.write frame.remaining s.tls.connection = (.ok written, connection) →
          written ≤ s.pendingBytes) ∧
      s.pending.length ≤ 64 ∧ s.pendingBytes ≤ 512 * 1024 ∧
      ∀ bytes error s', enqueue bytes s = (.error error, s') → s' = s := by
  have start :
      QueueInvariant (encodeUdpAssociateRequest verifier ++ ([] : List Bytes).flatten) e := by
    simpa using QueueInvariant.after_open tls opened rfl
  have inv := start.after_run (s := (e, [])) tls ops
  rw [reached] at inv
  dsimp only at inv
  refine ⟨inv.conserved, inv.counted, ?_, inv.frames, inv.bytes, ?_⟩
  · intro frame rest written connection queue wrote
    have bound := tls.recording.write_le wrote
    have size := inv.counted
    rw [queue, unsent_cons, List.length_append] at size
    omega
  · intro bytes error s' refused
    rcases enqueue_cases bytes s with ⟨error', unchanged⟩ | ⟨-, -, admits⟩
    · rw [unchanged] at refused
      cases refused
      rfl
    · rw [admits] at refused
      cases refused

/-- A verifier of 56 zeros. -/
def zeroVerifier : TrojanVerifier := ⟨List.replicate 56 0x30, by simp⟩

/-- An execution on a stalled connection, after its preface went into the TLS buffer. -/
def openedStalled : TrojanDatagramExecution (Nat × Bytes) :=
  { tls := { connection := (90, encodeUdpAssociateRequest zeroVerifier) } }

theorem openExecution_stalled :
    openExecution stalled.recording 2 zeroVerifier (0, []) = some (.ok (), openedStalled) := rfl

theorem send_queue_is_bounded_fifo_example :
    ∃ s, play stalled.recording [.enqueue [1, 2, 3], .drain 1] (openedStalled, []) =
      (s, [[1, 2, 3]]) ∧
      accepted s ++ unsent s.pending = encodeUdpAssociateRequest zeroVerifier ++ [1, 2, 3] := by
  refine ⟨_, rfl, ?_⟩
  exact (send_queue_is_bounded_fifo stalled openExecution_stalled
    [.enqueue [1, 2, 3], .drain 1] _ [[1, 2, 3]] rfl).1

end Commeatus.Daemon.TrojanDatagram
