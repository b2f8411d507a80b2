import Commeatus.Transport.TlsRelay

/-!
Half-close of the client in the TLS relay.

The relay sends `close_notify` once `client_eof` is set and `upstream` is empty.
A zero read sets `client_eof` behind the last byte of the client. A closing
flag of an event sets it right away, and after one read of at most a chunk:
what is left in the socket then is never read.
-/

namespace Commeatus.Transport.Relay

open Commeatus.Lib PolledStream

variable {κ : Type} (tls : Rustls κ)

/-- The plaintext handed to the TLS writer. -/
def handed (s : Relay (κ × Bytes)) : Bytes := s.connection.2

/-- The client's bytes are with the writer, in the buffer, or unread, in this order. Once the
client has ended by itself, none is unread; `close_notify` for its end finds none in the buffer. -/
structure Conserved (B : Bytes) (s : Relay (κ × Bytes)) : Prop where
  stream : s.handed ++ s.upstream.remaining ++ (s.client.unread ++ s.client.incoming) = B
  ended : s.clientEnd = some .client → s.client.Exhausted
  notified : s.closeNotify = some .client → s.clientEnd = some .client ∧ s.upstream.isEmpty = true
  endedByRemote : s.clientEnd = some .remote → s.closeNotifySent = true

variable {tls} {B : Bytes} {s s' : Relay (κ × Bytes)}

/-- Changes that touch neither the record nor the client's stream. -/
theorem Conserved.of_unread (h : Conserved B s) (handed : s'.handed = s.handed)
    (upstream : s'.upstream = s.upstream) (same : Unread s.client s'.client)
    (ended : s'.clientEnd = s.clientEnd) (notified : s'.closeNotify = s.closeNotify) :
    Conserved B s' := by
  constructor
  · rw [handed, upstream, same.stream]
    exact h.stream
  · intro byClient
    exact (h.ended (ended ▸ byClient)).stays same
  · rw [notified, ended, upstream]
    exact h.notified
  · rw [ended]
    unfold closeNotifySent
    rw [notified]
    exact h.endedByRemote

/-- `client_eof` for the end of the client, which must be there. -/
theorem Conserved.after_client_end (h : Conserved B s) (exhausted : s.client.Exhausted) :
    Conserved B (s.endClient .client) := by
  refine ⟨h.stream, fun _ => exhausted, fun notified => ?_, fun ended => ?_⟩
  · obtain ⟨ended, empty⟩ := h.notified notified
    refine ⟨?_, empty⟩
    rw [endClient, ended]
    rfl
  · refine h.endedByRemote ?_
    match side : s.clientEnd with
    | some .remote => rfl
    | some .client =>
        rw [endClient, side] at ended
        cases ended
    | none =>
        rw [endClient, side] at ended
        cases ended

/-- `client_eof` and `close_notify` for the end of the remote side. -/
theorem Conserved.after_remote_end (h : Conserved B s) :
    Conserved B (notifyClose tls.recording .remote (endClient .remote s)) := by
  have byClient : (endClient .remote s).clientEnd = some .client → s.clientEnd = some .client := by
    intro ended
    match side : s.clientEnd with
    | some .client => rfl
    | some .remote =>
        rw [endClient, side] at ended
        cases ended
    | none =>
        rw [endClient, side] at ended
        cases ended
  have keeps : s.clientEnd = some .client → (endClient .remote s).clientEnd = some .client := by
    intro ended
    rw [endClient, ended]
    rfl
  unfold notifyClose
  split
  · rename_i sent
    refine ⟨h.stream, fun ended => h.ended (byClient ended), fun notified => ?_, fun _ => sent⟩
    obtain ⟨ended, empty⟩ := h.notified notified
    exact ⟨keeps ended, empty⟩
  · refine ⟨h.stream, fun ended => h.ended (byClient ended), fun notified => ?_, fun _ => rfl⟩
    cases notified

theorem feedUpstream_conserved (rounds : Nat) :
    Run.Preserves (Conserved B) (feedUpstream tls.recording rounds) := by
  refine .bind (.loop fun s h => ?_) fun _ => .modify fun s h => ?_
  · unfold feedUpstreamRound
    split
    · exact h
    rename_i unfinished
    split
    · rename_i connection wrote
      refine h.of_unread ?_ rfl (.refl _) rfl rfl
      exact (recording_write tls wrote).trans (List.append_nil _)
    · rename_i count connection _ wrote
      constructor
      · have record := recording_write tls wrote
        have whole := List.take_append_drop count s.upstream.remaining
        have rest : Pending.remaining { s.upstream with offset := s.upstream.offset + count } =
            s.upstream.remaining.drop count := (List.drop_drop ..).symm
        show connection.2 ++ Pending.remaining _ ++ _ = B
        rw [record, rest, List.append_assoc (s.connection.2), whole]
        exact h.stream
      · exact h.ended
      · intro byClient
        have empty := (h.notified byClient).2
        exact absurd empty unfinished
      · exact h.endedByRemote
    · rename_i e connection failed
      have kept : connection.2 = s.connection.2 := recording_write_error tls failed
      have next : Conserved B { s with connection } := h.of_unread kept rfl (.refl _) rfl rfl
      split
      · exact next
      split
      · exact next
      · exact next
  · constructor
    · show s.handed ++ s.upstream.settle.remaining ++ _ = B
      rw [Pending.remaining_settle]
      exact h.stream
    · exact h.ended
    · intro byClient
      obtain ⟨ended, empty⟩ := h.notified byClient
      exact ⟨ended, (Pending.isEmpty_settle s.upstream).trans empty⟩
    · exact h.endedByRemote

theorem fillDownstream_conserved (h : Conserved B s) :
    Conserved B (fillDownstream tls.recording s).2 := by
  unfold fillDownstream
  split
  · exact h
  split
  · rename_i read
    exact h.of_unread (congrArg (·.2.2) read).symm rfl (.refl _) rfl rfl
  · rename_i e connection read
    have next : Conserved B { s with connection, downstream := {} } :=
      h.of_unread (congrArg (·.2.2) read).symm rfl (.refl _) rfl rfl
    split
    · exact next
    split
    · exact next
    · exact next

theorem closeAfterClient_conserved (h : Conserved B s) :
    Conserved B (closeAfterClient tls.recording s) := by
  unfold closeAfterClient
  split
  · rename_i closes
    simp only [Bool.and_eq_true, Bool.not_eq_true'] at closes
    obtain ⟨⟨ended, empty⟩, unsent⟩ := closes
    unfold notifyClose
    rw [if_neg (by rw [unsent]; decide)]
    refine ⟨h.stream, h.ended, fun _ => ⟨?_, empty⟩, fun _ => rfl⟩
    match side : s.clientEnd with
    | some .client => rfl
    | some .remote => exact absurd (h.endedByRemote side) (by rw [unsent]; decide)
    | none =>
        rw [clientEof, side] at ended
        cases ended
  · exact h

theorem closeAfterRemote_conserved (h : Conserved B s) :
    Conserved B (closeAfterRemote tls.recording s).2 := by
  unfold closeAfterRemote
  split
  · split
    · rename_i e client failed
      have same := shutdownWrite_unread s.client
      rw [failed] at same
      exact h.of_unread rfl rfl same rfl rfl
    · rename_i client shut
      have same := shutdownWrite_unread s.client
      rw [shut] at same
      have next : Conserved B { s with client, clientWriteShutdown := true } :=
        h.of_unread rfl rfl same rfl rfl
      exact next.after_remote_end
  · exact h

theorem registerClient_conserved (interest : Interest) (h : Conserved B s) :
    Conserved B (registerClient interest s).2 := by
  unfold registerClient
  split
  · exact h.of_unread rfl rfl (.refl _) rfl rfl
  · rename_i call _ _
    have same := registry_unread call s.client
    split
    · rename_i client called
      rw [called] at same
      exact h.of_unread rfl rfl same rfl rfl
    · rename_i e client called
      rw [called] at same
      exact h.of_unread rfl rfl same rfl rfl

theorem registerRemote_conserved (interest : Interest) (h : Conserved B s) :
    Conserved B (registerRemote tls.recording interest s).2 := by
  unfold registerRemote
  split
  · exact h.of_unread rfl rfl (.refl _) rfl rfl
  · split
    · rename_i called
      exact h.of_unread (congrArg (·.2.2) called).symm rfl (.refl _) rfl rfl
    · rename_i called
      exact h.of_unread (congrArg (·.2.2) called).symm rfl (.refl _) rfl rfl

theorem prepare_conserved (rounds : Nat) :
    Run.Preserves (Conserved B) (prepare tls.recording rounds) := by
  refine (feedUpstream_conserved rounds).bind fun _ => ?_
  refine (Run.Preserves.ofIo fun _ => fillDownstream_conserved).bind fun _ => ?_
  refine (Run.Preserves.modify fun _ => closeAfterClient_conserved).bind fun _ => ?_
  refine (Run.Preserves.ofIo fun _ => closeAfterRemote_conserved).bind fun _ => ?_
  intro s result s' h start
  dsimp only at h
  split at h
  · cases h
    exact start
  · refine Run.Preserves.bind (.ofIo ?_) (fun _ => .pure _) s result s' h start
    refine IoM.preserves_bind (fun s => registerClient_conserved _) fun _ => ?_
    refine IoM.preserves_bind (fun s => registerRemote_conserved _) fun _ s h => ?_
    split <;> exact h

theorem poll_conserved (batch : Batch) (h : Conserved B s) : Conserved B (poll batch s).2 := by
  have same := poll_unread s.client
  unfold poll
  split
  · rename_i polled
    rw [polled] at same
    exact h.of_unread rfl rfl same rfl rfl
  · rename_i polled
    rw [polled] at same
    exact h.of_unread rfl rfl same rfl rfl

/-- Writing to the client changes its socket, unread bytes apart, and `downstream`. -/
theorem writePending_frame {rounds : Nat} {s s' : Relay κ} {result : Except IoError Unit}
    (wrote : writePending rounds s = some (result, s')) :
    Unread s.client s'.client ∧
    s' = { s with client := s'.client, downstream := s'.downstream } := by
  let Frame := fun s₁ : Relay κ =>
    Unread s.client s₁.client ∧ s₁ = { s with client := s₁.client, downstream := s₁.downstream }
  have kept : Run.Preserves Frame (writePending rounds) := by
    refine .bind (.loop fun s₁ h => ?_) fun _ => .modify fun s₁ h => ⟨h.1, by rw [h.2]⟩
    have same := h.1.trans (write_unread s₁.downstream.remaining s₁.client)
    unfold writePendingRound
    split
    · exact h
    split
    · rename_i answer
      rw [answer] at same
      exact ⟨same, by rw [h.2]⟩
    · rename_i answer
      rw [answer] at same
      exact ⟨same, by rw [h.2]⟩
    · rename_i answer
      rw [answer] at same
      split
      · exact ⟨same, by rw [h.2]⟩
      split
      · exact ⟨same, by rw [h.2]⟩
      · exact ⟨same, by rw [h.2]⟩
  exact kept s result s' wrote ⟨.refl _, rfl⟩

theorem handleRemote_conserved (rounds : Nat) (interest : Interest) (event : Readiness) :
    Run.Preserves (Conserved B) (handleRemote tls.recording rounds interest event) := by
  -- The remote side's work changes the connection and `remote_eof` and nothing else.
  have kept : ∀ {α : Type} {x : Run (Relay (κ × Bytes)) α},
      Run.Keeps (fun s => (s.handed, s.upstream, s.client, s.clientEnd, s.closeNotify)) x →
        Run.Preserves (Conserved B) x := by
    intro α x keeps
    refine keeps.preserves fun s s' same h => ?_
    simp only [Prod.mk.injEq] at same
    obtain ⟨handed, upstream, client, ended, notified⟩ := same
    exact h.of_unread handed upstream (client ▸ .refl _) ended notified
  refine .bind (.when (kept ?_)) fun _ => .bind (.when (kept ?_)) fun _ =>
    .when (.modify fun s h => ?_)
  · refine .zoom (readRemoteTls_recording tls rounds) fun s t same => ?_
    exact Prod.ext same rfl
  · refine .zoom (writeRemoteTls_recording tls rounds) fun s t same => ?_
    exact Prod.ext same rfl
  · exact h.of_unread rfl rfl (.refl _) rfl rfl

theorem ioChunk_pos : 0 < ioChunk := by decide

/-- A read either leaves the buffer empty and the client's stream as it was, or moves bytes from the
socket into the buffer. -/
theorem readClient_conserved (h : Conserved B s) : Conserved B (readClient s).2 := by
  unfold readClient
  split
  · exact h
  rename_i empty
  simp only [Bool.not_eq_true', Bool.not_eq_false] at empty
  have nothing := Pending.remaining_of_isEmpty empty
  -- The buffer is cleared and the socket is later; this is all that most outcomes change.
  have cleared : ∀ client, Unread s.client client →
      Conserved B { s with client, upstream := {} } := by
    intro client same
    constructor
    · have stream := h.stream
      rw [nothing] at stream
      show s.handed ++ [] ++ (client.unread ++ client.incoming) = B
      rw [same.stream]
      exact stream
    · exact fun ended => (h.ended ended).stays same
    · exact fun notified => ⟨(h.notified notified).1, rfl⟩
    · exact h.endedByRemote
  obtain ⟨c, later, ⟨e, failed⟩ | ⟨atEnd, ended, none⟩ | ⟨n, some, read⟩⟩ :=
    read_cases ioChunk_pos s.client
  · rw [failed]
    have next := cleared c later.unread
    dsimp only
    split
    · exact next
    split
    · exact next
    · exact next
  · rw [atEnd]
    exact (cleared c later.unread).after_client_end ⟨ended, none⟩
  · rw [read]
    obtain ⟨b, rest, bytes⟩ := List.exists_cons_of_ne_nil some
    rw [bytes]
    constructor
    · have stream : s.handed ++ [] ++ (c.unread ++ c.incoming) = B :=
        (cleared c later.unread).stream
      show s.handed ++ (b :: rest) ++ (c.unread.drop n ++ c.incoming) = B
      rw [← bytes, List.append_assoc, ← List.append_assoc (c.unread.take n), List.take_append_drop]
      simpa using stream
    · intro byClient
      -- A client that has ended has nothing left to read.
      have exhausted := (h.ended byClient).stays later.unread
      rw [exhausted.unread] at some
      exact absurd List.take_nil some
    · intro notified
      have exhausted := (h.ended (h.notified notified).1).stays later.unread
      rw [exhausted.unread] at some
      exact absurd List.take_nil some
    · exact h.endedByRemote

/-- The event makes the relay read from the client. -/
def reads (interest : Interest) (event : Readiness) (s : Relay κ) : Bool :=
  event.readable && interest.readable && s.upstream.isEmpty

/-- A closing event finds the end of the client's stream: after the one read it allows, if it allows
one, nothing is left in the socket or still to arrive. A read that fails ends the relay instead. -/
def EndsDrained (interest : Interest) (event : Readiness) (s : Relay κ) : Prop :=
  event.closing = true → s.clientEnd = none →
    if reads interest event s then s.client.Fails ioChunk ∨ (s.client.read ioChunk).2.Exhausted
    else s.client.Exhausted

/-- The condition on the events of a run. -/
def ClosingDrained : Point → Relay κ → Prop
  | .handling wanted _ (⟨.client, event⟩ :: _), s => EndsDrained wanted.client event s
  | _, _ => True

theorem readClient_client {s s' : Relay κ} (empty : s.upstream.isEmpty = true)
    (read : readClient s = (.ok (), s')) :
    ¬ s.client.Fails ioChunk ∧ s'.client = (s.client.read ioChunk).2 := by
  unfold readClient at read
  rw [empty] at read
  simp only [Bool.not_true, Bool.false_eq_true, if_false] at read
  match result : s.client.read ioChunk with
  | (.ok [], client) =>
      rw [result] at read
      cases read
      refine ⟨?_, rfl⟩
      rintro ⟨e, failed, -⟩
      cases (congrArg Prod.fst result).symm.trans failed
  | (.ok (b :: bytes), client) =>
      rw [result] at read
      cases read
      refine ⟨?_, rfl⟩
      rintro ⟨e, failed, -⟩
      cases (congrArg Prod.fst result).symm.trans failed
  | (.error e, client) =>
      rw [result] at read
      dsimp only at read
      have soft : s.client.Fails ioChunk → e.kind ≠ .wouldBlock ∧ e.kind ≠ .interrupted := by
        rintro ⟨e', failed, hard⟩
        cases (congrArg Prod.fst result).symm.trans failed
        exact hard
      split at read
      · rename_i blocked
        cases read
        exact ⟨fun fails => (soft fails).1 blocked, rfl⟩
      split at read
      · rename_i interrupted
        cases read
        exact ⟨fun fails => (soft fails).2 interrupted, rfl⟩
      · cases read

theorem readClient_skips {s : Relay κ} (pending : s.upstream.isEmpty = false) :
    readClient s = (.ok (), s) := by
  unfold readClient
  rw [pending]
  rfl

theorem readClient_clientEnd {s s' : Relay κ} (read : readClient s = (.ok (), s'))
    (open' : s'.clientEnd = none) : s.clientEnd = none := by
  unfold readClient at read
  split at read
  · cases read
    exact open'
  split at read
  · cases read
    match side : s.clientEnd with
    | none => rfl
    | some side' =>
        simp only [endClient, side] at open'
        cases open'
  · cases read
    exact open'
  · split at read
    · cases read
      exact open'
    split at read
    · cases read
      exact open'
    · cases read

theorem handleClient_conserved {rounds : Nat} {interest : Interest} {event : Readiness}
    {result : Except IoError Unit} (h : Conserved B s) (drained : EndsDrained interest event s)
    (handled : handleClient rounds interest event s = some (result, s')) : Conserved B s' := by
  -- Behind the read, a closing event finds the stream at its end.
  let Ready := fun s : Relay (κ × Bytes) =>
    Conserved B s ∧ (event.closing = true → s.clientEnd = none → s.client.Exhausted)
  have rest : Run.Preserves Ready (do
      Run.when (event.writable && interest.writable) (writePending rounds)
      Run.when event.closing (Run.modify (endClient .client))) := by
    refine .bind (.when ?_) fun _ => ?_
    · intro s result s' wrote ready
      obtain ⟨same, frame⟩ := writePending_frame wrote
      rw [frame]
      refine ⟨ready.1.of_unread rfl rfl same rfl rfl, fun closing still => ?_⟩
      exact (ready.2 closing still).stays same
    · intro s result s' h ready
      unfold Run.when at h
      split at h
      · rename_i closing
        cases h
        match side : s.clientEnd with
        | none =>
            refine ⟨ready.1.after_client_end (ready.2 closing side), fun _ still => ?_⟩
            simp only [endClient, side] at still
            cases still
        | some token =>
            have same : s.clientEnd.or (some .client) = s.clientEnd := by
              rw [side]
              rfl
            rw [endClient, same]
            exact ready
      · cases h
        exact ready
  rcases Run.bind_eq_some handled with ⟨_, s₁, first, next⟩ | ⟨e, first, -⟩
  · refine (rest s₁ result s' next ?_).1
    unfold Run.when at first
    split at first
    · rename_i reading
      have read : readClient s = (.ok (), s₁) := Option.some.inj first
      have kept := readClient_conserved h
      rw [read] at kept
      refine ⟨kept, fun closing still => ?_⟩
      have ending := drained closing (readClient_clientEnd read still)
      cases empty : s.upstream.isEmpty with
      | true =>
          obtain ⟨succeeds, client⟩ := readClient_client empty read
          rw [reads, reading, empty] at ending
          rw [client]
          exact ending.resolve_left succeeds
      | false =>
          rw [reads, reading, empty] at ending
          cases (readClient_skips empty).symm.trans read
          exact ending
    · rename_i reading
      cases first
      refine ⟨h, fun closing still => ?_⟩
      have ending := drained closing still
      rw [reads, Bool.eq_false_iff.mpr reading] at ending
      exact ending
  · unfold Run.when at first
    split at first
    · have read : readClient s = (.error e, s') := Option.some.inj first
      have kept := readClient_conserved h
      rw [read] at kept
      exact kept
    · cases first

/-- What holds at every point: the client's bytes are accounted for, and a relay that has returned
without an error left none of them in its buffer. -/
structure Accounted (B : Bytes) (point : Point) (s : Relay (κ × Bytes)) : Prop where
  conserved : Conserved B s
  returned : point = .returned (.ok ()) → s.clientEof = true ∧ s.upstream.isEmpty = true

theorem step_accounted {rounds : Nat} {batch : Batch} {point point' : Point}
    (h : Accounted B point s)
    (meets : ClosingDrained point s)
    (stepped : step tls.recording rounds batch point s = some (point', s')) :
    Accounted B point' s' := by
  rcases step_cases stepped with ⟨handled, result, rfl, prepared, rfl⟩ | ⟨wanted,
    result, rfl, polled, rfl⟩ |
    ⟨wanted, handled, rfl, rfl, rfl⟩ | ⟨wanted, handled, event, events, result,
      rfl, handling, rfl⟩ |
    ⟨result, rfl, rfl, rfl⟩
  · refine ⟨prepare_conserved rounds s result s' prepared h.conserved, fun returned => ?_⟩
    match result with
    | .ok none =>
        have done := prepare_none prepared
        simp only [finished, Bool.and_eq_true] at done
        exact ⟨done.1.1.1.1, done.1.1.2⟩
    | .ok (some wanted) => cases returned
    | .error e => cases returned
  · have kept := poll_conserved batch h.conserved
    rw [polled] at kept
    refine ⟨kept, fun returned => ?_⟩
    cases result with
    | ok events => cases returned
    | error e => cases returned
  · exact ⟨h.conserved, fun returned => nomatch returned⟩
  · refine ⟨?_, fun returned => ?_⟩
    · obtain ⟨token, readiness⟩ := event
      cases token with
      | client => exact handleClient_conserved h.conserved meets handling
      | remote =>
          exact handleRemote_conserved rounds wanted.remote readiness s result s'
            handling h.conserved
    · match result with
      | .ok () => cases returned
      | .error e => cases returned
  · exact h

/-- In every run in which closing events find the client's stream at its end, `close_notify` for the
end of the client comes after all the client sent, and so does a return without an error unless the
remote side's end came first. -/
theorem client_bytes_kept_on_half_close {t : κ} {client : PolledStream} {point : Point}
    {s : Relay (κ × Bytes)}
    (reached : Reaches tls.recording ClosingDrained { connection := (t, []), client } point s) :
    (s.closeNotify = some .client → s.handed = client.unread ++ client.incoming) ∧
    (point = .returned (.ok ()) → s.clientEnd ≠ some .remote →
      s.handed = client.unread ++ client.incoming) := by
  have initial :
      Accounted (client.unread ++ client.incoming) (.top []) { connection := (t, []), client } :=
    ⟨⟨rfl, nofun, nofun, nofun⟩, nofun⟩
  obtain ⟨conserved, returned⟩ :=
    reached.invariant initial fun _ _ _ _ _ _ h meets stepped => step_accounted h meets stepped
  have whole : s.clientEnd = some .client → s.upstream.isEmpty = true →
      s.handed = client.unread ++ client.incoming := by
    intro ended empty
    have stream := conserved.stream
    rw [Pending.remaining_of_isEmpty empty, (conserved.ended ended).stream] at stream
    simpa using stream
  constructor
  · intro notified
    obtain ⟨ended, empty⟩ := conserved.notified notified
    exact whole ended empty
  · intro done notRemote
    obtain ⟨eof, empty⟩ := returned done
    refine whole ?_ empty
    match side : s.clientEnd with
    | some .client => rfl
    | some .remote => exact absurd side notRemote
    | none =>
        rw [clientEof, side] at eof
        cases eof

/-! ### A burst and a half-close before the first poll -/

/-- The client has sent `b :: rest` and half-closed before the relay starts. -/
def burst (b : UInt8) (rest : Bytes) : Relay (Nat × Bytes) where
  connection := (0, [])
  client := { incoming := [], unread := b :: rest, fin := true, finLast := fun _ => rfl }

/-- The event of the first poll: the bytes are readable, and the end has arrived. -/
def burstEvent : Event := ⟨.client, { readable := true, readClosed := true }⟩

/-- The relay before it handles the event. -/
def burstDue (b : UInt8) (rest : Bytes) : Relay (Nat × Bytes) where
  connection := (0, [])
  client :=
    { incoming := [], unread := b :: rest, fin := true, interest := some ⟨true, false⟩
      finLast := fun _ => rfl }
  clientRegistration := ⟨true, true, false⟩
  remoteRegistration := ⟨true, true, false⟩

/-- The relay after it has handled the event. -/
def burstRead (b : UInt8) (rest : Bytes) : Relay (Nat × Bytes) where
  connection := (0, [])
  client :=
    { incoming := []
      unread := (b :: rest).drop ioChunk
      fin := true
      interest := some ⟨true, false⟩
      finLast := fun _ => rfl }
  clientRegistration := ⟨true, true, false⟩
  remoteRegistration := ⟨true, true, false⟩
  clientEnd := some .client
  upstream := ⟨(b :: rest).take ioChunk, 0⟩

theorem burst_reaches {Meets : Point → Relay (Nat × Bytes) → Prop} (b : UInt8) (rest : Bytes)
    (top : Meets (.top []) (burst b rest)) (waiting : ∀ wanted s, Meets (.waiting wanted) s)
    (handling : Meets (.handling ⟨⟨true, false⟩, ⟨true, false⟩⟩ [] [burstEvent]) (burstDue b rest))
    (handled : ∀ wanted s, Meets (.handling wanted [burstEvent] []) s) :
    Reaches stalled.recording Meets (burst b rest) (.top [burstEvent]) (burstRead b rest) := by
  have first : Reaches stalled.recording Meets (burst b rest) (.top []) (burst b rest) := .start
  have polling := Reaches.step 1 {} first top rfl
  have polled := Reaches.step 1 {} polling (waiting _ _) rfl
  have read := Reaches.step 1 {} polled handling rfl
  exact .step 1 {} read (handled _ _) rfl

/-- The next round sends `close_notify` behind the chunk that was read. -/
theorem burst_closes (b : UInt8) (rest : Bytes) :
    ∃ wanted s, step stalled.recording 2 {} (.top [burstEvent]) (burstRead b rest) =
        some (.waiting wanted, s) ∧
      s.closeNotify = some .client ∧ s.handed = (b :: rest).take ioChunk := by
  have short : ((b :: rest).take ioChunk).length ≤ 65536 :=
    (List.length_take_le _ _).trans (by decide)
  have fed := feedUpstream_fits stalled_bufferedWriter.recording (s := burstRead b rest) rfl short
  have written : (stalled.recording.write ((b :: rest).take ioChunk) (0, [])).2.2 =
      (b :: rest).take ioChunk := by
    show [] ++ ((b :: rest).take ioChunk).take (min ((b :: rest).take ioChunk).length 65536) = _
    rw [Nat.min_eq_left short, List.take_length, List.nil_append]
  have prepared : ∃ wanted s, prepare stalled.recording 2 (burstRead b rest) =
    some (.ok (some wanted), s) ∧
      s.closeNotify = some .client ∧ s.handed = (b :: rest).take ioChunk := by
    unfold prepare
    rw [Run.bind_of_ok fed]
    -- Beside the record, the writer's state only decides about the interest in writing.
    match connected : (stalled.recording.write ((b :: rest).take ioChunk) (0, [])).2 with
    | (0, record) =>
        rw [connected] at written
        exact ⟨_, _, rfl, rfl, written⟩
    | (used + 1, record) =>
        rw [connected] at written
        exact ⟨_, _, rfl, rfl, written⟩
  obtain ⟨wanted, s, prepared, notified, handed⟩ := prepared
  exact ⟨wanted, s, step_of_prepare {} _ prepared, notified, handed⟩

/-- A client that sends one byte and half-closes. -/
theorem client_bytes_kept_example : ∃ wanted s,
    Reaches stalled.recording ClosingDrained (burst 7 []) (.waiting wanted) s ∧
      s.closeNotify = some .client ∧ s.handed = [7] := by
  have drained : EndsDrained ⟨true, false⟩ burstEvent.readiness (burstDue 7 []) := by
    intro _ _
    exact Or.inr ⟨rfl, rfl⟩
  have reached :
      Reaches stalled.recording ClosingDrained (burst 7 []) (.top [burstEvent]) (burstRead 7 []) :=
    burst_reaches 7 [] trivial (fun _ _ => trivial) drained fun _ _ => trivial
  obtain ⟨wanted, s, stepped, notified, -⟩ := burst_closes 7 []
  have closed := Reaches.step 2 {} reached trivial stepped
  exact ⟨wanted, s, closed, notified, (client_bytes_kept_on_half_close closed).1 notified⟩

/-- A client that sends one byte more than a chunk and half-closes: `close_notify` is sent for its
end, and the last byte is never handed to the writer. -/
theorem half_close_loses_second_chunk : ∃ wanted s,
    Reaches stalled.recording (fun _ _ => True) (burst 0 (List.replicate 16384 0))
      (.waiting wanted) s ∧
      s.closeNotify = some .client ∧ s.handed ≠ 0 :: List.replicate 16384 0 := by
  have reached : Reaches stalled.recording (fun _ _ => True) (burst 0 (List.replicate 16384 0))
      (.top [burstEvent]) (burstRead 0 (List.replicate 16384 0)) :=
    burst_reaches 0 _ trivial (fun _ _ => trivial) trivial fun _ _ => trivial
  obtain ⟨wanted, s, stepped, notified, handed⟩ := burst_closes 0 (List.replicate 16384 0)
  refine ⟨wanted, s, .step 2 {} reached trivial stepped, notified, fun whole => ?_⟩
  have lengths := congrArg List.length (handed.symm.trans whole)
  rw [List.length_take, List.length_cons, List.length_replicate] at lengths
  exact absurd lengths (by decide)

end Commeatus.Transport.Relay
