import Commeatus.Daemon.TrojanDatagram

/-!
Back-pressure on the Trojan UDP carrier.

The TLS writer takes what fits its buffer and answers zero when the buffer is
full. The stream relay leaves the rest for later; `drain_pending` returns a
`WriteZero` error instead. So a send or a receive fails for want of space
exactly when it drains a frame that finds no room for the whole of it.
-/

namespace Commeatus.Daemon.TrojanDatagram

open Commeatus.Lib Commeatus.Transport Trojan

variable {κ : Type} {tls : Rustls κ} {free : κ → Nat}

/-- The space left in the TLS buffer of an execution. -/
def room (free : κ → Nat) (e : TrojanDatagramExecution κ) : Nat := free e.tls.connection

/-- What draining a queue writes, one after the other. -/
def writesOf (pending : List PendingFrame) : List Bytes :=
  (pending.map PendingFrame.remaining).filter (!·.isEmpty)

theorem writesOf_finished {frame : PendingFrame} (finished : frame.remaining = [])
    (rest : List PendingFrame) : writesOf (frame :: rest) = writesOf rest := by
  simp [writesOf, finished]

theorem writesOf_unfinished {frame : PendingFrame} (unfinished : frame.remaining ≠ [])
    (rest : List PendingFrame) : writesOf (frame :: rest) = frame.remaining :: writesOf rest := by
  simp [writesOf, unfinished]

theorem writesOf_nonempty (pending : List PendingFrame) :
    ∀ bytes ∈ writesOf pending, bytes ≠ [] := by
  intro bytes member
  have some := (List.mem_filter.mp member).2
  rintro rfl
  cases some

/-- The round that writes to a buffered writer. -/
theorem drainRound_write (writer : BufferedWriter tls free) {e : TrojanDatagramExecution κ}
    {frame : PendingFrame} {rest : List PendingFrame} (queue : e.pending = frame :: rest)
    (unfinished : frame.remaining ≠ []) (space : 0 < room free e) :
    ∃ e', drainRound tls e = (.again, e') ∧
      e'.tls.connection = (tls.write frame.remaining e.tls.connection).2 ∧
      e'.pending = (if frame.offset + min frame.remaining.length (room free e) = frame.bytes.length
        then rest
        else { frame with offset := frame.offset + min frame.remaining.length (room free e) } ::
          rest) := by
  have answer := writer.accepts frame.remaining e.tls.connection
  have nonempty : 0 < frame.remaining.length := List.length_pos_iff.mpr unfinished
  have positive : 0 < min frame.remaining.length (room free e) := lt_min nonempty space
  rcases drainRound_cases tls e with ⟨none, -⟩ | ⟨frame', rest', queue', cases⟩
  · rw [queue] at none
    cases none
  rw [queue] at queue'
  cases queue'
  rcases cases with ⟨finished, -⟩ | ⟨-, error, connection, failed, -⟩ | ⟨-, connection, zero, -⟩ |
    ⟨-, written, connection, -, wrote, after⟩
  · exact absurd finished unfinished
  · rw [failed] at answer
    cases answer
  · rw [zero] at answer
    have : 0 = min frame.remaining.length (room free e) := Except.ok.inj answer
    omega
  · rw [wrote] at answer
    have amount : written = min frame.remaining.length (room free e) := Except.ok.inj answer
    subst amount
    exact ⟨_, after, by rw [wrote], rfl⟩

/-- The round that meets a full buffer. -/
theorem drainRound_full (writer : BufferedWriter tls free) {e : TrojanDatagramExecution κ}
    {frame : PendingFrame} {rest : List PendingFrame} (queue : e.pending = frame :: rest)
    (unfinished : frame.remaining ≠ []) (full : room free e = 0) :
    ∃ e', drainRound tls e = (.done (.error zeroWrite), e') := by
  have answer := writer.accepts frame.remaining e.tls.connection
  rcases drainRound_cases tls e with ⟨none, -⟩ | ⟨frame', rest', queue', cases⟩
  · rw [queue] at none
    cases none
  rw [queue] at queue'
  cases queue'
  have zero : free e.tls.connection = 0 := full
  rw [zero, Nat.min_zero] at answer
  rcases cases with ⟨finished, -⟩ | ⟨-, error, connection, failed, -⟩ | ⟨-, connection, -, after⟩ |
    ⟨-, written, connection, positive, wrote, -⟩
  · exact absurd finished unfinished
  · rw [failed] at answer
    cases answer
  · exact ⟨_, after⟩
  · rw [wrote] at answer
    have : written = 0 := Except.ok.inj answer
    omega

/-- The round that drops a finished frame. -/
theorem drainRound_finished {e : TrojanDatagramExecution κ} {frame : PendingFrame}
    {rest : List PendingFrame} (queue : e.pending = frame :: rest)
    (finished : frame.remaining = []) :
    drainRound tls e = (.again, { e with pending := rest }) := by
  simp [drainRound, queue, finished]

/-- A frame with bytes left ends where its remainder ends. -/
theorem offset_add_remaining {frame : PendingFrame} (unfinished : frame.remaining ≠ []) :
    frame.offset + frame.remaining.length = frame.bytes.length := by
  have positive := List.length_pos_iff.mpr unfinished
  simp only [PendingFrame.remaining, List.length_drop] at positive ⊢
  omega

/-- The round that writes the whole of a frame. -/
theorem drainRound_whole (writer : BufferedWriter tls free) {e : TrojanDatagramExecution κ}
    {frame : PendingFrame} {rest : List PendingFrame} (queue : e.pending = frame :: rest)
    (unfinished : frame.remaining ≠ []) (whole : frame.remaining.length ≤ room free e) :
    ∃ e', drainRound tls e = (.again, e') ∧
      e'.tls.connection = (tls.write frame.remaining e.tls.connection).2 ∧ e'.pending = rest := by
  have nonempty := List.length_pos_iff.mpr unfinished
  obtain ⟨e', round, connection, queue'⟩ :=
    drainRound_write writer queue unfinished (Nat.lt_of_lt_of_le nonempty whole)
  rw [min_eq_left whole, if_pos (offset_add_remaining unfinished)] at queue'
  exact ⟨e', round, connection, queue'⟩

/-- A queue that fits the buffer is drained. -/
theorem drain_fits (writer : BufferedWriter tls free) {e : TrojanDatagramExecution κ}
    (fits : Fits tls free (writesOf e.pending) e.tls.connection) :
    ∃ e', iterate (drainRound tls) (e.pending.length + 1) e = (some (.ok ()), e') ∧
      e'.pending = [] := by
  -- The induction is on the queue: each round takes one frame off it.
  induction queue : e.pending generalizing e with
  | nil =>
      refine ⟨e, ?_, queue⟩
      simp [iterate, drainRound, queue]
  | cons frame rest ih =>
      rw [queue] at fits
      by_cases finished : frame.remaining = []
      · rw [writesOf_finished finished] at fits
        obtain ⟨e', result, empty⟩ := ih (e := { e with pending := rest }) fits rfl
        refine ⟨e', ?_, empty⟩
        rw [iterate, drainRound_finished queue finished]
        exact result
      · rw [writesOf_unfinished finished] at fits
        obtain ⟨e₁, round, connection, queue₁⟩ := drainRound_whole writer queue finished fits.1
        obtain ⟨e', result, empty⟩ :=
          ih (e := e₁) (by rw [queue₁, connection]; exact fits.2) queue₁
        refine ⟨e', ?_, empty⟩
        rw [iterate, round]
        exact result

/-- A queue that does not fit the buffer ends the drain with an error. -/
theorem drain_overflows (writer : BufferedWriter tls free) {e : TrojanDatagramExecution κ}
    (overflow : ¬ Fits tls free (writesOf e.pending) e.tls.connection) :
    ∃ e', iterate (drainRound tls) (e.pending.length + 2) e = (some (.error zeroWrite), e') := by
  induction queue : e.pending generalizing e with
  | nil =>
      rw [queue] at overflow
      exact absurd trivial overflow
  | cons frame rest ih =>
      rw [queue] at overflow
      by_cases finished : frame.remaining = []
      · rw [writesOf_finished finished] at overflow
        obtain ⟨e', result⟩ := ih (e := { e with pending := rest }) overflow rfl
        refine ⟨e', ?_⟩
        rw [List.length_cons, iterate, drainRound_finished queue finished]
        exact result
      rw [writesOf_unfinished finished] at overflow
      by_cases full : room free e = 0
      · obtain ⟨e', round⟩ := drainRound_full writer queue finished full
        exact ⟨e', by rw [List.length_cons, iterate, round]⟩
      by_cases whole : frame.remaining.length ≤ room free e
      · obtain ⟨e₁, round, connection, queue₁⟩ := drainRound_whole writer queue finished whole
        have later : ¬ Fits tls free (writesOf e₁.pending) e₁.tls.connection := by
          rw [queue₁, connection]
          exact fun fits => overflow ⟨whole, fits⟩
        obtain ⟨e', result⟩ := ih later queue₁
        refine ⟨e', ?_⟩
        rw [List.length_cons, iterate, round]
        exact result
      · -- A part of the frame fits; the next round finds the buffer full.
        obtain ⟨e₁, round, connection, queue₁⟩ :=
          drainRound_write writer queue finished (Nat.pos_of_ne_zero full)
        have left := writer.spends frame.remaining e.tls.connection
        rw [← connection] at left
        change room free e₁ ≤ room free e - min frame.remaining.length (room free e) at left
        rw [min_eq_right (by omega)] at left queue₁
        have size := offset_add_remaining finished
        rw [if_neg (by omega)] at queue₁
        have unfinished : ({ frame with offset := frame.offset + room free e } :
            PendingFrame).remaining ≠ [] := by
          apply List.ne_nil_of_length_pos
          simp only [PendingFrame.remaining, List.length_drop]
          omega
        obtain ⟨e', last⟩ := drainRound_full writer queue₁ unfinished (by omega)
        refine ⟨e', ?_⟩
        rw [List.length_cons, iterate, round]
        simp only [iterate, last]

/-- Draining a queue that fits empties it, whatever the number of rounds. -/
theorem drainPending_fits (writer : BufferedWriter tls free) {e e' : TrojanDatagramExecution κ}
    (fits : Fits tls free (writesOf e.pending) e.tls.connection) {rounds : Nat}
    {result : Except IoError Unit} (returned : drainPending tls rounds e = some (result, e')) :
    result = .ok () ∧ e'.pending = [] := by
  obtain ⟨e₁, drained, empty⟩ := drain_fits writer fits
  obtain ⟨rfl, rfl⟩ := Run.loop_unique drained returned
  exact ⟨rfl, empty⟩

/-! ### Everything else never reports a zero write -/

theorem takeFrame_ne_zeroWrite (outputLen : Nat) (e : TrojanDatagramExecution κ) :
    (takeFrame outputLen e).1 ≠ .error zeroWrite := by
  unfold takeFrame
  split
  · rename_i error parsed
    intro h
    cases h
    have kind := parseUdpFrame_error_kind parsed
    cases kind
  · exact fun h => nomatch h
  · dsimp only
    split
    · intro h
      have kind := congrArg IoError.kind (Except.error.inj h)
      cases kind
    · exact fun h => nomatch h

theorem enqueue_ne_zeroWrite (bytes : Bytes) (e : TrojanDatagramExecution κ) :
    (enqueue bytes e).1 ≠ .error zeroWrite := by
  intro h
  unfold enqueue at h
  split at h
  · exact absurd (congrArg IoError.kind (Except.error.inj h)) (by decide)
  split at h
  · exact absurd (congrArg IoError.kind (Except.error.inj h)) (by decide)
  split at h
  · exact absurd (congrArg IoError.kind (Except.error.inj h)) (by decide)
  · cases h

theorem refreshReadiness_never (silent : tls.Silent zeroWrite) :
    Run.Never zeroWrite (refreshReadiness tls) := by
  intro e e' h
  unfold refreshReadiness at h
  split at h
  · have inner : Run.Never zeroWrite (Run.ofIo (TlsFramedSession.refreshReadiness tls)) := by
      intro s s' h'
      exact silent.refreshReadiness s (congrArg Prod.fst (Option.some.inj h'))
    exact inner.zoom e e' h
  · cases h
  · exact absurd (congrArg IoError.kind (Except.error.inj (congrArg Prod.fst (Option.some.inj h))))
      (by decide)

theorem readPlaintextIntoRx_never (silent : tls.Silent zeroWrite) (rounds : Nat) :
    Run.Never zeroWrite (readPlaintextIntoRx tls rounds) := by
  refine .loop fun e e' h => ?_
  unfold readPlaintextRound TlsFramedSession.readPlaintext at h
  split at h
  · have kind := congrArg IoError.kind (Except.error.inj (Round.done.inj (congrArg Prod.fst h)))
    exact absurd kind (by decide)
  split at h
  · cases h
  · cases h
  · rename_i error session failed
    split at h
    · cases h
    split at h
    · cases h
    · cases h
      exact silent.read _ e.tls.connection (congrArg Prod.fst failed)

theorem noFrame_never : Run.Never zeroWrite (noFrame (κ := κ)) := by
  intro e e' h
  unfold noFrame at h
  split at h
  · exact absurd (congrArg IoError.kind (Except.error.inj (congrArg Prod.fst (Option.some.inj h))))
      (by decide)
  · cases h

/-- Servicing the TLS session leaves the queue alone. -/
theorem onTls_pending {α : Type} (x : Run (TlsFramedSession κ) α) :
    Run.Keeps TrojanDatagramExecution.pending (onTls x) := by
  intro e result e' h
  unfold onTls Run.zoom at h
  split at h
  · cases h
  · cases h
    rfl

/-- Servicing a queue that fits the buffer reports no zero write. -/
theorem serviceReady_fits (writer : BufferedWriter tls free) (silent : tls.Silent zeroWrite)
    {e e' : TrojanDatagramExecution κ}
    (fits : Fits tls free (writesOf e.pending) e.tls.connection) {rounds : Nat} :
    serviceReady tls rounds e ≠ some (.error zeroWrite, e') := by
  intro h
  unfold serviceReady at h
  rcases Run.bind_eq_error h with failed | ⟨_, e₁, drained, h⟩
  · have := (drainPending_fits writer fits failed).1
    cases this
  obtain ⟨-, empty⟩ := drainPending_fits writer fits drained
  rcases Run.bind_eq_error h with failed | ⟨_, e₂, serviced, h⟩
  · exact (silent.serviceIo rounds).zoom _ _ failed
  -- The second drain finds an empty queue.
  have still : e₂.pending = [] := (onTls_pending _ e₁ _ _ serviced).trans empty
  rcases Run.bind_eq_error h with failed | ⟨_, e₃, -, h⟩
  · have := (drainPending_fits writer (by rw [still]; exact trivial) failed).1
    cases this
  rcases Run.bind_eq_error h with failed | ⟨_, e₄, -, h⟩
  · exact readPlaintextIntoRx_never silent rounds _ _ failed
  · exact refreshReadiness_never silent _ _ h

/-! ### Sends and receives -/

inductive CarrierOp where
  | send (target : Target) (payload : Bytes)
  | receive (outputLen : Nat)

def perform (tls : Rustls κ) (rounds : Nat) :
    CarrierOp → Run (TrojanDatagramExecution κ) (Option ReceivedDatagram)
  | .send target payload => do
      send tls rounds target payload
      pure none
  | .receive outputLen => receive tls rounds outputLen

/-- The condition on the state before an operation: of the frames that it drains, each finds room in
the TLS buffer for what is left of it. A send drains if its frame is admitted; a receive drains if
its buffer holds no complete frame. -/
def Roomy (tls : Rustls κ) (free : κ → Nat) (e : TrojanDatagramExecution κ) : CarrierOp → Prop
  | .send target payload => ∀ frame, encodeUdpFrame target payload = .ok frame →
      e.pending.length < maxPendingFrames → e.pendingBytes + frame.length ≤ maxPendingBytes →
        Fits tls free (writesOf (e.pending ++ [⟨frame, 0⟩])) e.tls.connection
  | .receive _ =>
      parseUdpFrame e.rx = .ok none → Fits tls free (writesOf e.pending) e.tls.connection

theorem send_zeroWrite_iff (writer : BufferedWriter tls free) (silent : tls.Silent zeroWrite)
    (e : TrojanDatagramExecution κ) (target : Target) (payload : Bytes) :
    (∃ rounds e', send tls rounds target payload e = some (.error zeroWrite, e')) ↔
      ¬ Roomy tls free e (.send target payload) := by
  constructor
  · rintro ⟨rounds, e', h⟩ roomy
    unfold send at h
    cases encoded : encodeUdpFrame target payload with
    | error error =>
        rw [encoded] at h
        cases h
        have kind := encodeUdpFrame_error_kind encoded
        cases kind
    | ok frame =>
        rw [encoded] at h
        rcases Run.bind_eq_error h with refused | ⟨_, e₁, admitted, h⟩
        · exact enqueue_ne_zeroWrite frame e (congrArg Prod.fst (Option.some.inj refused))
        rcases enqueue_cases frame e with ⟨error, refused⟩ | ⟨few, small, result⟩
        · cases (Option.some.inj admitted).symm.trans refused
        cases result.symm.trans (Option.some.inj admitted)
        rcases Run.bind_eq_error h with failed | ⟨_, e₂, -, h⟩
        · have := (drainPending_fits writer (roomy frame encoded few small) failed).1
          cases this
        · exact refreshReadiness_never silent _ _ h
  · intro full
    simp only [Roomy, not_forall] at full
    obtain ⟨frame, encoded, few, small, overflow⟩ := full
    rcases enqueue_cases frame e with ⟨error, refused⟩ | ⟨-, -, admitted⟩
    · unfold enqueue at refused
      have noOverflow : ¬ usizeMax < e.pendingBytes + frame.length := by
        unfold maxPendingBytes at small
        unfold usizeMax
        omega
      rw [if_neg (not_le.mpr few), if_neg noOverflow, if_neg (not_lt.mpr small)] at refused
      cases refused
    · obtain ⟨e', drained⟩ := drain_overflows writer (e := { e with
        pendingBytes := e.pendingBytes + frame.length
        pending := e.pending ++ [⟨frame, 0⟩] }) overflow
      refine ⟨(e.pending ++ [(⟨frame, 0⟩ : PendingFrame)]).length + 2, e', ?_⟩
      unfold send
      rw [encoded]
      dsimp only
      rw [Run.bind_of_ok (show Run.ofIo (enqueue frame) e = _ from congrArg some admitted)]
      exact Run.bind_of_error (Run.loop_of_iterate drained le_rfl)

theorem receive_zeroWrite_iff (writer : BufferedWriter tls free) (silent : tls.Silent zeroWrite)
    (e : TrojanDatagramExecution κ) (outputLen : Nat) :
    (∃ rounds e', receive tls rounds outputLen e = some (.error zeroWrite, e')) ↔
      ¬ Roomy tls free e (.receive outputLen) := by
  constructor
  · rintro ⟨rounds, e', h⟩ roomy
    unfold receive at h
    rcases Run.bind_eq_error h with failed | ⟨first, e₁, taken, later⟩
    · exact takeFrame_ne_zeroWrite outputLen e (congrArg Prod.fst (Option.some.inj failed))
    cases first with
    | some datagram => cases later
    | none =>
        obtain ⟨untouched, incomplete⟩ := takeFrame_none (Option.some.inj taken)
        rw [untouched] at later
        rcases Run.bind_eq_error later with failed | ⟨_, e₂, -, h⟩
        · exact serviceReady_fits writer silent (roomy incomplete) failed
        rcases Run.bind_eq_error h with failed | ⟨second, e₃, -, h⟩
        · exact takeFrame_ne_zeroWrite outputLen e₂ (congrArg Prod.fst (Option.some.inj failed))
        cases second with
        | some datagram => cases h
        | none => exact noFrame_never _ _ h
  · intro full
    simp only [Roomy, Classical.not_imp] at full
    obtain ⟨incomplete, overflow⟩ := full
    obtain ⟨e', drained⟩ := drain_overflows writer overflow
    refine ⟨e.pending.length + 2, e', ?_⟩
    have service : serviceReady tls (e.pending.length + 2) e = some (.error zeroWrite, e') :=
      Run.bind_of_error (Run.loop_of_iterate drained le_rfl)
    have none : takeFrame outputLen e = (.ok none, e) := by
      unfold takeFrame
      rw [incomplete]
    unfold receive
    rw [Run.bind_of_ok (show Run.ofIo (takeFrame outputLen) e = _ from congrArg some none)]
    exact Run.bind_of_error service

/-- An operation fails for want of space exactly when it is not roomy. -/
theorem perform_zeroWrite_iff (writer : BufferedWriter tls free) (silent : tls.Silent zeroWrite)
    (e : TrojanDatagramExecution κ) (op : CarrierOp) :
    (∃ rounds e', perform tls rounds op e = some (.error zeroWrite, e')) ↔
      ¬ Roomy tls free e op := by
  cases op with
  | send target payload =>
      rw [← send_zeroWrite_iff writer silent]
      constructor
      · rintro ⟨rounds, e', h⟩
        rcases Run.bind_eq_error h with failed | ⟨_, e₁, -, h⟩
        · exact ⟨rounds, e', failed⟩
        · cases h
      · rintro ⟨rounds, e', h⟩
        exact ⟨rounds, e', Run.bind_of_error h⟩
  | receive outputLen => exact receive_zeroWrite_iff writer silent e outputLen

/-! ### Runs -/

/-- The frame an operation adds to the queue, if it adds one. -/
def admittedBy (e : TrojanDatagramExecution κ) : CarrierOp → List Bytes
  | .send target payload =>
      match encodeUdpFrame target payload with
      | .error _ => []
      | .ok frame =>
          match (enqueue frame e).1 with
          | .ok () => [frame]
          | .error _ => []
  | .receive _ => []

/-- Sends and receives on one execution, each of which met a condition before it was performed: the
frames admitted, the results returned and the execution reached. -/
inductive CarrierRun (tls : Rustls κ) (Meets : TrojanDatagramExecution κ → CarrierOp → Prop)
    (start : TrojanDatagramExecution κ) :
    List Bytes → List (Except IoError (Option ReceivedDatagram)) →
    TrojanDatagramExecution κ → Prop where
  | start : CarrierRun tls Meets start [] [] start
  | step {admitted : List Bytes} {results : List (Except IoError (Option ReceivedDatagram))}
      {e e' : TrojanDatagramExecution κ} {op : CarrierOp} {rounds : Nat}
      {result : Except IoError (Option ReceivedDatagram)} :
      CarrierRun tls Meets start admitted results e → Meets e op →
      perform tls rounds op e = some (result, e') →
      CarrierRun tls Meets start (admitted ++ admittedBy e op) (results ++ [result]) e'

/-- What the queue invariant looks at. -/
def queueView (e : TrojanDatagramExecution (κ × Bytes)) : Bytes × List PendingFrame × Nat :=
  (accepted e, e.pending, e.pendingBytes)

theorem QueueInvariant.of_view (total : Bytes) (e e' : TrojanDatagramExecution (κ × Bytes))
    (same : queueView e' = queueView e) (h : QueueInvariant total e) : QueueInvariant total e' := by
  obtain ⟨log, rest⟩ := Prod.mk.inj same
  obtain ⟨pending, bytes⟩ := Prod.mk.inj rest
  exact ⟨by rw [log, pending]; exact h.conserved, by rw [bytes, pending]; exact h.counted,
    by rw [pending]; exact h.frames, by rw [bytes]; exact h.bytes⟩

variable (tls)

theorem drainPending_preserves (total : Bytes) (rounds : Nat) :
    Run.Preserves (QueueInvariant total) (drainPending tls.recording rounds) :=
  .loop fun _ h => h.after_round tls

theorem onTls_view {α : Type} {x : Run (TlsFramedSession (κ × Bytes)) α}
    (kept : Run.Keeps TlsFramedSession.recorded x) : Run.Keeps queueView (onTls x) := by
  refine Run.Keeps.zoom kept ?_
  intro e session same
  simp only [queueView, accepted]
  rw [show session.connection.2 = e.tls.connection.2 from same]

theorem refreshReadiness_view : Run.Keeps queueView (refreshReadiness tls.recording) := by
  intro e result e' h
  unfold refreshReadiness at h
  split at h
  · have kept : Run.Keeps TlsFramedSession.recorded
        (Run.ofIo (TlsFramedSession.refreshReadiness tls.recording)) := by
      intro s r s' h'
      rw [← TlsFramedSession.refreshReadiness_recording tls s, Option.some.inj h']
    exact onTls_view kept e result e' h
  · cases h
    rfl
  · cases h
    rfl

theorem readPlaintextIntoRx_view (rounds : Nat) :
    Run.Keeps queueView (readPlaintextIntoRx tls.recording rounds) := by
  refine .loop fun e => ?_
  unfold readPlaintextRound
  split
  · rfl
  · split
    · rename_i session h
      have log : session.connection.2 = e.tls.connection.2 := congrArg (·.2.connection.2) h.symm
      simp only [queueView, accepted, log]
    · rename_i bytes session _ h
      have log : session.connection.2 = e.tls.connection.2 := congrArg (·.2.connection.2) h.symm
      simp only [queueView, accepted, log]
    · rename_i error session h
      have log : session.connection.2 = e.tls.connection.2 := congrArg (·.2.connection.2) h.symm
      split
      · simp only [queueView, accepted, log]
      · split <;> simp only [queueView, accepted, log]

theorem takeFrame_view (outputLen : Nat) :
    Run.Keeps queueView (Run.ofIo (takeFrame (κ := κ × Bytes) outputLen)) := by
  intro e result e' h
  have after := congrArg Prod.snd (Option.some.inj h)
  rw [← (show (takeFrame outputLen e).2 = e' from after)]
  unfold takeFrame
  split
  · rfl
  · rfl
  · dsimp only
    split <;> rfl

theorem serviceReady_preserves (total : Bytes) (rounds : Nat) :
    Run.Preserves (QueueInvariant total) (serviceReady tls.recording rounds) := by
  have drain := drainPending_preserves tls total rounds
  have service := (onTls_view (TlsFramedSession.serviceIo_recording tls rounds)).preserves
    (QueueInvariant.of_view total)
  have read := (readPlaintextIntoRx_view tls rounds).preserves (QueueInvariant.of_view total)
  have refresh := (refreshReadiness_view tls).preserves (QueueInvariant.of_view total)
  exact drain.bind fun _ => service.bind fun _ => drain.bind fun _ => read.bind fun _ => refresh

theorem receive_preserves (total : Bytes) (rounds outputLen : Nat) :
    Run.Preserves (QueueInvariant total) (receive tls.recording rounds outputLen) := by
  have take := (takeFrame_view (κ := κ) outputLen).preserves (QueueInvariant.of_view total)
  refine take.bind fun first => ?_
  cases first with
  | some datagram =>
      intro e result e' h start
      cases h
      exact start
  | none =>
      refine (serviceReady_preserves tls total rounds).bind fun _ => take.bind fun second => ?_
      intro e result e' h start
      cases second with
      | some datagram =>
          cases h
          exact start
      | none =>
          dsimp only [noFrame] at h
          split at h <;> cases h <;> exact start

theorem send_invariant {total : Bytes} {e e' : TrojanDatagramExecution (κ × Bytes)} {rounds : Nat}
    {target : Target} {payload : Bytes} {result : Except IoError Unit} (h : QueueInvariant total e)
    (sent : send tls.recording rounds target payload e = some (result, e')) :
    QueueInvariant (total ++ (admittedBy e (.send target payload)).flatten) e' := by
  unfold send at sent
  simp only [admittedBy]
  cases encoded : encodeUdpFrame target payload with
  | error error =>
      rw [encoded] at sent
      cases sent
      simpa using h
  | ok frame =>
      rw [encoded] at sent
      dsimp only at sent ⊢
      have rest := (drainPending_preserves tls (total ++ frame) rounds).bind fun _ =>
        (refreshReadiness_view tls).preserves (QueueInvariant.of_view (total ++ frame))
      rcases enqueue_cases frame e with ⟨error, refused⟩ | ⟨-, -, admitted⟩
      · rw [Run.bind_of_error (show Run.ofIo (enqueue frame) e =
          _ from congrArg some refused)] at sent
        cases sent
        simpa [refused] using h
      · rw [Run.bind_of_ok (show Run.ofIo (enqueue frame) e =
          _ from congrArg some admitted)] at sent
        have kept := rest _ _ _ sent (h.after_enqueue admitted)
        simpa [admitted] using kept

/-- An operation keeps the invariant, for the frames it admits. -/
theorem perform_invariant {total : Bytes} {e e' : TrojanDatagramExecution (κ × Bytes)}
    {rounds : Nat}
    {op : CarrierOp} {result : Except IoError (Option ReceivedDatagram)}
    (h : QueueInvariant total e)
    (performed : perform tls.recording rounds op e = some (result, e')) :
    QueueInvariant (total ++ (admittedBy e op).flatten) e' := by
  cases op with
  | send target payload =>
      rcases Run.bind_eq_some performed with ⟨_, e₁, sent, last⟩ | ⟨error, sent, -⟩
      · cases last
        exact send_invariant tls h sent
      · exact send_invariant tls h sent
  | receive outputLen =>
      simpa [admittedBy] using receive_preserves tls total rounds outputLen e result e' performed h

theorem CarrierRun.invariant {Meets : TrojanDatagramExecution (κ × Bytes) → CarrierOp → Prop}
    {start e : TrojanDatagramExecution (κ × Bytes)} {total : Bytes} {admitted : List Bytes}
    {results : List (Except IoError (Option ReceivedDatagram))}
    (run : CarrierRun tls.recording Meets start admitted results e)
    (h : QueueInvariant total start) :
    QueueInvariant (total ++ admitted.flatten) e := by
  induction run with
  | start => simpa using h
  | step _ _ performed ih =>
      have next := perform_invariant tls ih performed
      simpa [List.append_assoc] using next

/-- In every run whose operations each find room for the frames they drain, none of them reports a
zero write and every byte queued is accepted or still to be written, in order. In any state, an
operation reports a zero write exactly when it does not find that room; where the writer's charge
is known, that is a comparison of lengths. -/
theorem back_pressure_absorbed_iff_roomy {free : κ → Nat} (writer : BufferedWriter tls free)
    (silent : tls.Silent zeroWrite) {rounds : Nat} {verifier : TrojanVerifier} {t : κ}
    {start : TrojanDatagramExecution (κ × Bytes)}
    (opened : openExecution tls.recording rounds verifier (t, []) = some (.ok (), start)) :
    (∀ admitted results e,
      CarrierRun tls.recording (Roomy tls.recording fun s => free s.1) start admitted results e →
        (∀ result ∈ results, result ≠ .error zeroWrite) ∧
          accepted e ++ unsent e.pending =
            encodeUdpAssociateRequest verifier ++ admitted.flatten) ∧
    (∀ e op, (∃ rounds e', perform tls.recording rounds op e = some (.error zeroWrite, e')) ↔
      ¬ Roomy tls.recording (fun s => free s.1) e op) ∧
    ∀ charge, Charges tls free charge → ∀ pending t,
      Fits tls.recording (fun s => free s.1) (writesOf pending) t ↔
        ∀ front bytes rest, writesOf pending = front ++ bytes :: rest →
          (front.map fun written => charge written.length).sum + bytes.length ≤ free t.1 := by
  have initial := QueueInvariant.after_open tls opened rfl
  have exact := perform_zeroWrite_iff writer.recording silent.recording
  refine ⟨fun admitted results e run => ⟨?_, (run.invariant tls initial).conserved⟩, exact, ?_⟩
  · induction run with
    | start => exact fun _ mem => nomatch mem
    | @step admitted results e e' op rounds result run roomy performed ih =>
        intro r mem
        rcases List.mem_append.mp mem with earlier | last
        · exact ih r earlier
        · rw [List.mem_singleton.mp last]
          rintro rfl
          exact (exact e op).mp ⟨rounds, e', performed⟩ roomy
  · intro charge charges pending t
    exact charges.recording.fits_iff (writesOf_nonempty pending) t

theorem stalled_silent : stalled.Silent zeroWrite := by
  refine ⟨?_, ?_, ?_, ?_, ?_⟩ <;> intros <;> intro h <;> cases h

/-- The frame of a datagram to an IPv4 address. -/
theorem encodeUdpFrame_v4 (address : Ipv4Addr) {port : UInt16}
    (positive : port ≠ 0) {payload : Bytes}
    (small : payload.length ≤ 65535) :
    ∃ frame, encodeUdpFrame ⟨.ip (.v4 address), port, positive⟩ payload = .ok frame ∧
      frame.length = 11 + payload.length := by
  have encoded : encodeUdpFrame ⟨.ip (.v4 address), port, positive⟩ payload =
      .ok (0x01 :: address.octets ++ toBeBytes port ++
        toBeBytes (UInt16.ofNat payload.length) ++ crlf ++
        payload) :=
    if_neg (not_lt.mpr small)
  refine ⟨_, encoded, ?_⟩
  simp only [Ipv4Addr.octets, toBeBytes, crlf, List.length_append,
    List.length_cons, List.length_nil]

/-- A first datagram of one byte is sent and nothing reports a zero write. -/
theorem back_pressure_absorbed_example :
    (∃ e, perform stalled.recording 3 (.send ⟨.ip (.v4 ⟨1, 2, 3, 4⟩), 53, by decide⟩ [7])
        openedStalled = some (.ok none, e) ∧
      accepted e ++ unsent e.pending =
        encodeUdpAssociateRequest zeroVerifier ++ [1, 1, 2, 3, 4, 0, 53, 0, 1, 13, 10, 7]) ∧
    ¬ ∃ rounds e', perform stalled.recording rounds
      (.send ⟨.ip (.v4 ⟨1, 2, 3, 4⟩), 53, by decide⟩ [7]) openedStalled =
        some (.error zeroWrite, e') := by
  obtain ⟨runs, exactly, charged⟩ :=
    back_pressure_absorbed_iff_roomy stalled stalled_bufferedWriter stalled_silent
      openExecution_stalled
  have roomy : Roomy stalled.recording (fun s : Nat × Bytes => 65536 - s.1) openedStalled
      (.send ⟨.ip (.v4 ⟨1, 2, 3, 4⟩), 53, by decide⟩ [7]) := by
    intro frame encoded _ _
    cases encoded
    exact ⟨by decide, trivial⟩
  refine ⟨⟨_, rfl, ?_⟩, fun full => (exactly _ _).mp full roomy⟩
  exact (runs _ _ _
    (.step .start roomy (rfl : perform stalled.recording 3 _ openedStalled = some _))).2

/-- A datagram of 65500 bytes, sent right after the association is opened, is within the bounds of
the queue and does not fit what the preface left of the TLS buffer. -/
theorem full_buffer_fails_send :
    openExecution stalled.recording 2 zeroVerifier (0, []) = some (.ok (), openedStalled) ∧
    BufferedWriter stalled (fun used => 65536 - used) ∧
    openedStalled.pending.length < 64 ∧ openedStalled.pendingBytes + 65511 ≤ 512 * 1024 ∧
    ∃ rounds e', perform stalled.recording rounds (.send ⟨.ip (.v4 ⟨1, 2, 3, 4⟩), 53, by decide⟩
      (List.replicate 65500 0)) openedStalled = some (.error zeroWrite, e') := by
  refine ⟨rfl, stalled_bufferedWriter, by decide, by decide, ?_⟩
  refine (perform_zeroWrite_iff stalled_bufferedWriter.recording stalled_silent.recording _ _).mpr
    ?_
  intro roomy
  have length : (List.replicate 65500 (0 : UInt8)).length = 65500 := List.length_replicate
  obtain ⟨frame, encoded, size⟩ := encodeUdpFrame_v4 ⟨1, 2, 3, 4⟩
    (show (53 : UInt16) ≠ 0 by decide) (by rw [length]; decide)
  rw [length] at size
  have fits := roomy frame encoded (by decide) (by
    rw [size]
    decide)
  have unfinished : (⟨frame, 0⟩ : PendingFrame).remaining ≠ [] := by
    refine List.ne_nil_of_length_pos ?_
    rw [PendingFrame.remaining, List.drop_zero, size]
    decide
  rw [show openedStalled.pending ++ [⟨frame, 0⟩] = [⟨frame, 0⟩] from rfl,
    writesOf_unfinished unfinished] at fits
  have small : frame.length ≤ 65536 - 90 := fits.1
  rw [size] at small
  exact absurd small (by decide)

end Commeatus.Daemon.TrojanDatagram
