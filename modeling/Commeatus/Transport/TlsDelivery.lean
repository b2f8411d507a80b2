import Commeatus.Transport.TlsHalfClose
import Commeatus.Transport.TlsReadiness

/-!
The direction from the server to the client in the TLS relay.

Plaintext is read from the connection one chunk at a time, into an empty buffer,
and written to the client's socket as it takes it. So the client gets what was
read, in order and without a gap, and its stream is ended only when the remote
side has ended and nothing that was read is still in the buffer.
-/

namespace Commeatus.Lib.PolledStream

/-! ### What a socket has sent -/

/-- The socket has sent the same, and its sending side is as it was. -/
structure Sending (s s' : PolledStream) : Prop where
  outgoing : s'.outgoing = s.outgoing
  shut : s'.shut = s.shut

theorem Sending.refl (s : PolledStream) : Sending s s := ⟨rfl, rfl⟩

theorem Sending.trans {s₁ s₂ s₃ : PolledStream} (first : Sending s₁ s₂)
    (next : Sending s₂ s₃) : Sending s₁ s₃ :=
  ⟨next.outgoing.trans first.outgoing, next.shut.trans first.shut⟩

theorem occur_sending (s : PolledStream) (activity : Activity) : Sending s (s.occur activity) := by
  cases activity with
  | arrive count =>
      simp only [occur]
      split
      · exact .refl s
      · exact ⟨rfl, rfl⟩
  | fin =>
      simp only [occur]
      split
      · exact ⟨rfl, rfl⟩
      · exact .refl s
  | acked count =>
      simp only [occur]
      split
      · exact .refl s
      split
      · exact ⟨rfl, rfl⟩
      · exact ⟨rfl, rfl⟩
  | reset => exact ⟨rfl, rfl⟩

theorem advance_sending (s : PolledStream) : Sending s s.advance.2 := by
  have all : ∀ (activities : List Activity) (s : PolledStream),
      Sending s (activities.foldl occur s) := by
    intro activities
    induction activities with
    | nil => exact .refl
    | cons activity activities ih => exact fun s => (occur_sending s activity).trans (ih _)
  unfold advance
  split
  · exact .refl s
  · rename_i step future _
    exact (⟨rfl, rfl⟩ : Sending s { s with future }).trans (all step.activity _)

theorem read_sending (limit : Nat) (s : PolledStream) : Sending s (read limit s).2 := by
  have sent := advance_sending s
  simp only [read]
  split
  · exact sent
  split
  · split
    · exact sent
    split
    · exact sent
    · exact sent
  · exact ⟨sent.outgoing, sent.shut⟩

theorem registry_sending (call : RegistryCall) (s : PolledStream) :
    Sending s (registry call s).2 := by
  have sent := advance_sending s
  simp only [registry]
  split
  · exact sent
  cases call with
  | register interest => exact ⟨sent.outgoing, sent.shut⟩
  | reregister interest => exact ⟨sent.outgoing, sent.shut⟩
  | deregister => exact ⟨sent.outgoing, sent.shut⟩

theorem poll_sending (s : PolledStream) : Sending s (poll s).2 := by
  have sent := advance_sending s
  simp only [poll]
  split
  · exact sent
  split
  · exact ⟨sent.outgoing, sent.shut⟩
  · exact sent

theorem shutdownWrite_sends {s s' : PolledStream} {result : Except IoError Unit}
    (answer : shutdownWrite s = (result, s')) :
    s'.outgoing = s.outgoing ∧ (s.shut = true → s'.shut = true) ∧
    (result = .ok () → s'.shut = true) := by
  have sent := advance_sending s
  simp only [shutdownWrite] at answer
  split at answer
  · cases answer
    exact ⟨sent.outgoing, fun shut => sent.shut.trans shut, by simp⟩
  · cases answer
    exact ⟨sent.outgoing, fun _ => rfl, fun _ => rfl⟩

/-- A socket sends a front of what it is given, unless its sending side is shut. -/
theorem write_sends {bytes : Bytes} {s s' : PolledStream} {result : Except IoError Nat}
    (answer : write bytes s = (result, s')) :
    s'.shut = s.shut ∧ ((∃ e, result = .error e ∧ s'.outgoing = s.outgoing) ∨
      ∃ count, result = .ok count ∧ s.shut = false ∧
        s'.outgoing = s.outgoing ++ bytes.take count) := by
  have sent := advance_sending s
  simp only [write] at answer
  split at answer
  · cases answer
    exact ⟨sent.shut, .inl ⟨_, rfl, sent.outgoing⟩⟩
  split at answer
  · cases answer
    exact ⟨sent.shut, .inl ⟨_, rfl, sent.outgoing⟩⟩
  rename_i whole
  split at answer
  · cases answer
    exact ⟨sent.shut, .inl ⟨_, rfl, sent.outgoing⟩⟩
  · cases answer
    simp only [Bool.or_eq_true, not_or, Bool.not_eq_true] at whole
    exact ⟨sent.shut, .inr ⟨_, rfl, sent.shut.symm.trans whole.1, by rw [sent.outgoing]⟩⟩

end Commeatus.Lib.PolledStream

namespace Commeatus.Transport

open Commeatus.Lib PolledStream

variable {κ : Type} (tls : Rustls κ)

/-- The same connection, with a record of every plaintext byte that was read from it. -/
def Rustls.delivering : Rustls (κ × Bytes) where
  write bytes s := ((tls.write bytes s.1).1, ((tls.write bytes s.1).2, s.2))
  read limit s :=
    match tls.read limit s.1 with
    | (.ok bytes, t) => (.ok bytes, (t, s.2 ++ bytes))
    | (.error e, t) => (.error e, (t, s.2))
  wantsRead s := tls.wantsRead s.1
  wantsWrite s := tls.wantsWrite s.1
  readTls s := ((tls.readTls s.1).1, ((tls.readTls s.1).2, s.2))
  writeTls s := ((tls.writeTls s.1).1, ((tls.writeTls s.1).2, s.2))
  processNewPackets s := ((tls.processNewPackets s.1).1, ((tls.processNewPackets s.1).2, s.2))
  sendCloseNotify s := (tls.sendCloseNotify s.1, s.2)
  registry call s := ((tls.registry call s.1).1, ((tls.registry call s.1).2, s.2))
  write_le := by
    intro bytes s n s' h
    exact tls.write_le (Prod.ext (Prod.mk.inj h).1 rfl)
  read_le := by
    intro limit s bytes s' h
    split at h
    · rename_i read
      cases h
      exact tls.read_le read
    · cases h

variable {tls}

theorem delivering_read {limit : Nat} {s s' : κ × Bytes} {bytes : Bytes}
    (read : tls.delivering.read limit s = (.ok bytes, s')) : s'.2 = s.2 ++ bytes := by
  simp only [Rustls.delivering] at read
  split at read
  · cases read
    rfl
  · cases read

theorem delivering_read_error {limit : Nat} {s s' : κ × Bytes} {e : IoError}
    (failed : tls.delivering.read limit s = (.error e, s')) : s'.2 = s.2 := by
  simp only [Rustls.delivering] at failed
  split at failed
  · cases failed
  · cases failed
    rfl

/-! ### The plaintext read -/

variable {log : κ → Bytes}

/-- `log` is the plaintext that was read from a connection. -/
structure Rustls.ReadLog (tls : Rustls κ) (log : κ → Bytes) : Prop where
  read : ∀ {limit t bytes t'}, tls.read limit t = (.ok bytes, t') → log t' = log t ++ bytes
  readError : ∀ {limit t e t'}, tls.read limit t = (.error e, t') → log t' = log t
  write : ∀ bytes t, log (tls.write bytes t).2 = log t
  readTls : ∀ t, log (tls.readTls t).2 = log t
  writeTls : ∀ t, log (tls.writeTls t).2 = log t
  processNewPackets : ∀ t, log (tls.processNewPackets t).2 = log t
  registry : ∀ call t, log (tls.registry call t).2 = log t

namespace Rustls.ReadLog

theorem delivering (tls : Rustls κ) : tls.delivering.ReadLog Prod.snd :=
  ⟨delivering_read, delivering_read_error, fun _ _ => rfl, fun _ => rfl, fun _ => rfl, fun _ => rfl,
    fun _ _ => rfl⟩

/-- Recording what the writer accepts leaves the log as it is. -/
theorem recording (h : tls.ReadLog log) : tls.recording.ReadLog fun s => log s.1 where
  read {limit s bytes s'} answer := by
    have inner : tls.read limit s.1 = (.ok bytes, s'.1) :=
      Prod.ext (congrArg (·.1) answer) (congrArg (·.2.1) answer)
    exact h.read inner
  readError {limit s e s'} answer := by
    have inner : tls.read limit s.1 = (.error e, s'.1) :=
      Prod.ext (congrArg (·.1) answer) (congrArg (·.2.1) answer)
    exact h.readError inner
  write bytes s := by
    have kept := h.write bytes s.1
    simp only [Rustls.recording]
    split
    · rename_i answer
      rw [answer] at kept
      exact kept
    · rename_i answer
      rw [answer] at kept
      exact kept
  readTls s := h.readTls s.1
  writeTls s := h.writeTls s.1
  processNewPackets s := h.processNewPackets s.1
  registry call s := h.registry call s.1

theorem writeRemoteTls (h : tls.ReadLog log) (rounds : Nat) :
    Run.Keeps log (writeRemoteTls tls rounds) := by
  refine .loop fun t => ?_
  have kept := h.writeTls t
  unfold writeRemoteTlsRound
  split
  · rfl
  split
  · rename_i answer
    rwa [answer] at kept
  · rename_i answer
    rwa [answer] at kept
  · rename_i answer
    rw [answer] at kept
    split
    · exact kept
    split
    · exact kept
    · exact kept

theorem readRemoteTls (h : tls.ReadLog log) (rounds : Nat) :
    Run.Keeps (fun s : κ × Bool => log s.1) (readRemoteTls tls rounds) := by
  refine .loop fun s => ?_
  have kept := h.readTls s.1
  unfold readRemoteTlsRound
  split
  · rename_i answer
    rwa [answer] at kept
  · rename_i t _ answer
    rw [answer] at kept
    have processed := h.processNewPackets t
    split
    · rename_i answer
      rw [answer] at processed
      exact processed.trans kept
    · rename_i answer
      rw [answer] at processed
      exact processed.trans kept
  · rename_i answer
    rw [answer] at kept
    split
    · exact kept
    split
    · exact kept
    · exact kept

theorem serviceIo (h : tls.ReadLog log) (rounds : Nat) :
    Run.Keeps (fun s : TlsFramedSession κ => log s.connection)
      (TlsFramedSession.serviceIo tls rounds) := by
  have flush : Run.Keeps (fun s : TlsFramedSession κ => log s.connection)
      (TlsFramedSession.flushTls tls rounds) :=
    .zoom (h.writeRemoteTls rounds) fun _ _ kept => kept
  have fill : Run.Keeps (fun s : TlsFramedSession κ => log s.connection)
      (TlsFramedSession.fillTls tls rounds) := by
    have zoomed : Run.Keeps (fun s : TlsFramedSession κ => log s.connection)
        (Run.zoom (fun s : TlsFramedSession κ => (s.connection, s.remoteEof))
          (fun out s => { s with connection := out.1, remoteEof := out.2 })
          (Transport.readRemoteTls tls rounds)) :=
      .zoom (h.readRemoteTls rounds) fun _ _ kept => kept
    intro s result s' filled
    unfold TlsFramedSession.fillTls at filled
    split at filled
    · cases filled
      rfl
    · exact zoomed s result s' filled
  exact flush.bind fun _ => fill.bind fun _ => flush

theorem refreshReadiness (h : tls.ReadLog log) (s : TlsFramedSession κ) :
    log (TlsFramedSession.refreshReadiness tls s).2.connection = log s.connection := by
  unfold TlsFramedSession.refreshReadiness
  dsimp only
  split
  · rfl
  · rename_i call _ _
    have kept := h.registry call s.connection
    split
    · rename_i answer
      rwa [answer] at kept
    · rename_i answer
      rwa [answer] at kept

end Rustls.ReadLog

/-- Reading ciphertext does not take the end of the stream back. -/
theorem readRemoteTls_ended (rounds : Nat) :
    Run.Preserves (fun s : κ × Bool => s.2 = true) (readRemoteTls tls rounds) := by
  refine .loop fun s ended => ?_
  unfold readRemoteTlsRound
  split
  · rfl
  · split
    · exact ended
    · exact ended
  · split
    · exact ended
    split
    · exact ended
    · exact ended

namespace Relay

/-- The plaintext read from the connection. -/
def received (s : Relay (κ × Bytes)) : Bytes := s.connection.2

/-! ### Parts that leave the direction alone -/

/-- Nothing was read for the client or sent to it. -/
structure Kept (s s' : Relay (κ × Bytes)) : Prop where
  received : s'.received = s.received
  downstream : s'.downstream = s.downstream
  client : Sending s.client s'.client
  closed : s'.clientWriteShutdown = s.clientWriteShutdown
  ended : s.remoteEof = true → s'.remoteEof = true

variable {s s' : Relay (κ × Bytes)}

theorem Kept.refl (s : Relay (κ × Bytes)) : Kept s s := ⟨rfl, rfl, .refl _, rfl, id⟩

theorem Kept.trans {s₁ s₂ s₃ : Relay (κ × Bytes)} (first : Kept s₁ s₂)
    (next : Kept s₂ s₃) : Kept s₁ s₃ where
  received := next.received.trans first.received
  downstream := next.downstream.trans first.downstream
  client := first.client.trans next.client
  closed := next.closed.trans first.closed
  ended := next.ended ∘ first.ended

theorem feedUpstream_kept (rounds : Nat) (s : Relay (κ × Bytes)) :
    Run.Preserves (Kept s) (feedUpstream tls.delivering rounds) := by
  refine .bind (.loop fun s₁ kept => kept.trans ?_) fun _ =>
    .modify fun s₁ kept => kept.trans ⟨rfl, rfl, .refl _, rfl, id⟩
  unfold feedUpstreamRound
  split
  · exact .refl s₁
  split
  · rename_i answer
    exact ⟨congrArg (·.2.2) answer.symm, rfl, .refl _, rfl, id⟩
  · rename_i answer
    exact ⟨congrArg (·.2.2) answer.symm, rfl, .refl _, rfl, id⟩
  · rename_i e connection answer
    have kept : Kept s₁ { s₁ with connection } :=
      ⟨congrArg (·.2.2) answer.symm, rfl, .refl _, rfl, id⟩
    split
    · exact kept
    split
    · exact kept
    · exact kept

theorem notifyClose_kept (side : Token) (s : Relay (κ × Bytes)) :
    Kept s (notifyClose tls.delivering side s) := by
  unfold notifyClose
  split
  · exact .refl s
  · exact ⟨rfl, rfl, .refl _, rfl, id⟩

theorem closeAfterClient_kept (s : Relay (κ × Bytes)) :
    Kept s (closeAfterClient tls.delivering s) := by
  unfold closeAfterClient
  split
  · exact notifyClose_kept .client s
  · exact .refl s

theorem registerClient_kept (interest : Interest) (s : Relay (κ × Bytes)) :
    Kept s (registerClient interest s).2 := by
  unfold registerClient
  split
  · exact ⟨rfl, rfl, .refl _, rfl, id⟩
  rename_i call _ _
  have sent := registry_sending call s.client
  split
  · rename_i called
    rw [called] at sent
    exact ⟨rfl, rfl, sent, rfl, id⟩
  · rename_i called
    rw [called] at sent
    exact ⟨rfl, rfl, sent, rfl, id⟩

theorem registerRemote_kept (interest : Interest) (s : Relay (κ × Bytes)) :
    Kept s (registerRemote tls.delivering interest s).2 := by
  unfold registerRemote
  split
  · exact ⟨rfl, rfl, .refl _, rfl, id⟩
  split
  · rename_i called
    exact ⟨congrArg (·.2.2) called.symm, rfl, .refl _, rfl, id⟩
  · rename_i called
    exact ⟨congrArg (·.2.2) called.symm, rfl, .refl _, rfl, id⟩

theorem register_kept (wanted : Wanted) (s s₁ : Relay (κ × Bytes)) (kept : Kept s s₁) :
    Kept s (register tls.delivering wanted s₁).2 := by
  refine IoM.preserves_bind (fun s₁ kept => kept.trans (registerClient_kept _ s₁))
    (fun _ => ?_) s₁ kept
  refine IoM.preserves_bind (fun s₁ kept => kept.trans (registerRemote_kept _ s₁)) fun _ s₁ kept =>
    ?_
  split
  · exact kept
  · exact kept

theorem poll_kept (batch : Batch) (s : Relay (κ × Bytes)) : Kept s (poll batch s).2 := by
  have sent := poll_sending s.client
  unfold poll
  split
  · rename_i polled
    rw [polled] at sent
    exact ⟨rfl, rfl, sent, rfl, id⟩
  · rename_i polled
    rw [polled] at sent
    exact ⟨rfl, rfl, sent, rfl, id⟩

theorem readClient_kept (s : Relay (κ × Bytes)) : Kept s (readClient s).2 := by
  have sent := read_sending ioChunk s.client
  unfold readClient
  split
  · exact .refl s
  split
  · rename_i answer
    rw [answer] at sent
    exact ⟨rfl, rfl, sent, rfl, id⟩
  · rename_i answer
    rw [answer] at sent
    exact ⟨rfl, rfl, sent, rfl, id⟩
  · rename_i e client answer
    rw [answer] at sent
    have kept : Kept s { s with client, upstream := {} } := ⟨rfl, rfl, sent, rfl, id⟩
    split
    · exact kept
    split
    · exact kept
    · exact kept

theorem handleRemote_kept (rounds : Nat) (interest : Interest) (event : Readiness)
    (s : Relay (κ × Bytes)) :
    Run.Preserves (Kept s) (handleRemote tls.delivering rounds interest event) := by
  refine .bind (.when ?_) fun _ => .bind (.when ?_) fun _ => .when (.modify fun s₁ kept => ?_)
  · intro s₁ result s₂ read kept
    obtain ⟨out, inner, rfl⟩ := Run.of_zoom read
    have same := (Rustls.ReadLog.delivering tls).readRemoteTls rounds _ _ _ inner
    have stays := readRemoteTls_ended rounds _ _ _ inner
    exact kept.trans ⟨same, rfl, .refl _, rfl, stays⟩
  · intro s₁ result s₂ wrote kept
    obtain ⟨out, inner, rfl⟩ := Run.of_zoom wrote
    exact kept.trans ⟨(Rustls.ReadLog.delivering tls).writeRemoteTls rounds _ _ _ inner,
      rfl, .refl _, rfl, id⟩
  · exact kept.trans ⟨rfl, rfl, .refl _, rfl, fun _ => rfl⟩

/-! ### The bytes for the client -/

/-- What the client has been sent and what the buffer holds for it is what was read. Where the
client's stream has been ended with the given bytes sent, it stays so. -/
structure Delivered (last : Option Bytes) (s : Relay (κ × Bytes)) : Prop where
  stream : s.client.outgoing ++ s.downstream.remaining = s.received
  bounded : s.downstream.bytes.length ≤ ioChunk
  closed : s.clientWriteShutdown = true → s.client.shut = true
  fixed : ∀ bytes, last = some bytes → s.client.shut = true ∧ s.client.outgoing = bytes

variable {last : Option Bytes}

theorem Delivered.kept (delivered : Delivered last s) (kept : Kept s s') : Delivered last s' := by
  constructor
  · rw [kept.client.outgoing, kept.downstream, kept.received]
    exact delivered.stream
  · rw [kept.downstream]
    exact delivered.bounded
  · rw [kept.closed, kept.client.shut]
    exact delivered.closed
  · rw [kept.client.shut, kept.client.outgoing]
    exact delivered.fixed

/-- A run whose every part keeps the direction keeps what is delivered. -/
theorem delivered_of_kept {α : Type} {x : Run (Relay (κ × Bytes)) α}
    (kept : ∀ s, Run.Preserves (Kept s) x) :
    Run.Preserves (Delivered last) x :=
  fun s _ s' h delivered => delivered.kept (kept s s _ s' h (.refl s))

theorem fillDownstream_delivered (delivered : Delivered last s) :
    Delivered last (fillDownstream tls.delivering s).2 := by
  unfold fillDownstream
  split
  · exact delivered
  rename_i pending
  have empty : s.downstream.isEmpty = true := by simpa using pending
  have sent : s.client.outgoing = s.received := by
    have stream := delivered.stream
    rw [Pending.remaining_of_isEmpty empty, List.append_nil] at stream
    exact stream
  split
  · rename_i bytes connection read
    refine ⟨?_, tls.delivering.read_le read, delivered.closed, delivered.fixed⟩
    show s.client.outgoing ++ bytes = connection.2
    rw [delivering_read read, sent]
    rfl
  · rename_i e connection read
    have next : Delivered last { s with connection, downstream := {} } := by
      refine ⟨?_, Nat.zero_le _, delivered.closed, delivered.fixed⟩
      show s.client.outgoing ++ [] = connection.2
      rw [delivering_read_error read, List.append_nil, sent]
      rfl
    split
    · exact next
    split
    · exact next
    · exact next

theorem closeAfterRemote_delivered (delivered : Delivered last s) :
    Delivered last (closeAfterRemote tls.delivering s).2 := by
  unfold closeAfterRemote
  split
  · rename_i closes
    simp only [Bool.and_eq_true, Bool.not_eq_true'] at closes
    split
    · rename_i e client failed
      obtain ⟨same, stays, -⟩ := shutdownWrite_sends failed
      refine ⟨?_, delivered.bounded, fun shut => ?_, fun bytes is => ?_⟩
      · show client.outgoing ++ _ = _
        rw [same]
        exact delivered.stream
      · cases closes.2.symm.trans shut
      · obtain ⟨shut, sent⟩ := delivered.fixed bytes is
        exact ⟨stays shut, same.trans sent⟩
    · rename_i client done
      obtain ⟨same, stays, shuts⟩ := shutdownWrite_sends done
      have next : Delivered last { s with client, clientWriteShutdown := true } := by
        refine ⟨?_, delivered.bounded, fun _ => shuts rfl, fun bytes is => ?_⟩
        · show client.outgoing ++ _ = _
          rw [same]
          exact delivered.stream
        · obtain ⟨shut, sent⟩ := delivered.fixed bytes is
          exact ⟨stays shut, same.trans sent⟩
      have ended :
          Delivered last (endClient .remote { s with client, clientWriteShutdown := true }) :=
        next.kept ⟨rfl, rfl, .refl _, rfl, id⟩
      exact ended.kept (notifyClose_kept .remote _)
  · exact delivered

theorem prepare_delivered (rounds : Nat) :
    Run.Preserves (Delivered last) (prepare tls.delivering rounds) := by
  refine (delivered_of_kept (feedUpstream_kept rounds)).bind fun _ => ?_
  refine (Run.Preserves.ofIo fun _ => fillDownstream_delivered).bind fun _ => ?_
  refine (Run.Preserves.modify fun s delivered =>
    delivered.kept (closeAfterClient_kept s)).bind fun _ => ?_
  refine (Run.Preserves.ofIo fun _ => closeAfterRemote_delivered).bind fun _ => ?_
  intro s result s' h delivered
  dsimp only at h
  split at h
  · cases h
    exact delivered
  · refine Run.Preserves.bind (.ofIo ?_) (fun _ => .pure _) s result s' h delivered
    exact fun s delivered => delivered.kept (register_kept _ s s (.refl s))

theorem writePending_delivered (rounds : Nat) :
    Run.Preserves (Delivered last) (writePending rounds : Run (Relay (κ × Bytes)) Unit) := by
  refine .bind (.loop fun s delivered => ?_) fun _ => .modify fun s delivered => ?_
  · unfold writePendingRound
    split
    · exact delivered
    split
    · rename_i client answer
      obtain ⟨same, ⟨e, no, -⟩ | ⟨count, is, unshut, sent⟩⟩ := write_sends answer
      · cases no
      cases is
      rw [List.take_zero, List.append_nil] at sent
      exact delivered.kept ⟨rfl, rfl, ⟨sent, same⟩, rfl, id⟩
    · rename_i count client _ answer
      obtain ⟨same, ⟨e, no, -⟩ | ⟨count', is, unshut, sent⟩⟩ := write_sends answer
      · cases no
      cases is
      refine ⟨?_, delivered.bounded, fun shut => same.trans (delivered.closed shut),
        fun bytes is => ?_⟩
      · have rest : Pending.remaining { s.downstream with offset := s.downstream.offset + count } =
            s.downstream.remaining.drop count := (List.drop_drop ..).symm
        show client.outgoing ++ Pending.remaining _ = _
        rw [sent, rest, List.append_assoc, List.take_append_drop]
        exact delivered.stream
      · cases unshut.symm.trans (delivered.fixed bytes is).1
    · rename_i e client answer
      obtain ⟨same, ⟨e', -, sent⟩ | ⟨count, no, -⟩⟩ := write_sends answer
      rotate_left
      · cases no
      have next : Delivered last { s with client } :=
        delivered.kept ⟨rfl, rfl, ⟨sent, same⟩, rfl, id⟩
      split
      · exact next
      split
      · exact next
      · exact next
  · refine ⟨?_, ?_, delivered.closed, delivered.fixed⟩
    · show s.client.outgoing ++ s.downstream.settle.remaining = _
      rw [Pending.remaining_settle]
      exact delivered.stream
    · show s.downstream.settle.bytes.length ≤ ioChunk
      unfold Pending.settle
      split
      · exact Nat.zero_le _
      · exact delivered.bounded

theorem handle_delivered (rounds : Nat) (wanted : Wanted) (event : Event) :
    Run.Preserves (Delivered last) (handle tls.delivering rounds wanted event) := by
  unfold handle
  cases event.token with
  | client =>
      refine .bind (.when (.ofIo fun s delivered => delivered.kept (readClient_kept s))) fun _ => ?_
      refine .bind (.when (writePending_delivered rounds)) fun _ =>
        .when (.modify fun s delivered => ?_)
      exact delivered.kept ⟨rfl, rfl, .refl _, rfl, id⟩
  | remote => exact delivered_of_kept (handleRemote_kept rounds wanted.remote event.readiness)

theorem proceed_delivered (rounds : Nat) (batch : Batch) (point : Point) :
    Run.Preserves (Delivered last) (proceed tls.delivering rounds batch point) := by
  match point with
  | .top handled =>
      refine (prepare_delivered rounds).bind fun outcome => ?_
      cases outcome with
      | none => exact .pure _
      | some wanted => exact .pure _
  | .waiting wanted =>
      refine Run.Preserves.bind (.ofIo fun s delivered => delivered.kept (poll_kept batch s))
        fun _ => .pure _
  | .handling wanted handled [] => exact .pure _
  | .handling wanted handled (event :: events) =>
      exact (handle_delivered rounds wanted event).bind fun _ => .pure _
  | .returned result => exact .pure _

theorem step_delivered {rounds : Nat} {batch : Batch} {point point' : Point}
    (delivered : Delivered last s)
    (stepped : step tls.delivering rounds batch point s = some (point', s')) :
    Delivered last s' := by
  obtain ⟨result, proceeded⟩ : ∃ result, proceed tls.delivering rounds batch point s =
      some (result, s') := by
    unfold step at stepped
    split at stepped
    · cases stepped
    · rename_i proceeded
      cases stepped
      exact ⟨_, proceeded⟩
    · rename_i proceeded
      cases stepped
      exact ⟨_, proceeded⟩
  exact proceed_delivered rounds batch point _ _ _ proceeded delivered

/-! ### The end of the client's stream -/

/-- Where the client's stream has been ended, the remote side had ended and nothing was left for the
client. -/
def Ends (s : Relay (κ × Bytes)) : Prop :=
  s.clientWriteShutdown = true → s.remoteEof = true ∧ s.downstream.isEmpty = true

theorem Ends.of_open (unshut : s.clientWriteShutdown = false) : Ends s := by
  intro shut
  cases unshut.symm.trans shut

theorem Ends.kept (ends : Ends s) (kept : Kept s s') : Ends s' := by
  intro shut
  rw [kept.closed] at shut
  obtain ⟨ended, empty⟩ := ends shut
  rw [kept.downstream]
  exact ⟨kept.ended ended, empty⟩

theorem fillDownstream_closed (tls : Rustls κ) (s : Relay κ) :
    (fillDownstream tls s).2.clientWriteShutdown = s.clientWriteShutdown := by
  unfold fillDownstream
  split
  · rfl
  split
  · rfl
  split
  · rfl
  split
  · rfl
  · rfl

theorem closeAfterRemote_ends (unshut : s.clientWriteShutdown = false) :
    Ends (closeAfterRemote tls.delivering s).2 := by
  unfold closeAfterRemote
  split
  · rename_i closes
    simp only [Bool.and_eq_true] at closes
    split
    · exact .of_open unshut
    · rename_i client done
      have shut : Ends (endClient .remote { s with client, clientWriteShutdown := true }) :=
        fun _ => closes.1
      exact shut.kept (notifyClose_kept .remote _)
  · exact .of_open unshut

/-- A round that comes through it has ended the client's stream if nothing is left for the
client. -/
theorem closeAfterRemote_closes (closed : closeAfterRemote tls.delivering s = (.ok (), s'))
    (ended : s'.remoteEof = true)
    (empty : s'.downstream.isEmpty = true) : s'.clientWriteShutdown = true := by
  unfold closeAfterRemote at closed
  split at closed
  · split at closed
    · cases closed
    · cases closed
      exact (notifyClose_kept .remote _).closed
  · rename_i stays
    cases closed
    simpa [ended, empty] using stays

theorem prepare_ends {rounds : Nat} {result : Except IoError (Option Wanted)}
    (prepared : prepare tls.delivering rounds s = some (result, s'))
    (unshut : s.clientWriteShutdown = false) :
    Ends s' := by
  rcases Run.bind_eq_some prepared with ⟨_, s₁, fed, prepared⟩ | ⟨e, fed, -⟩
  rotate_left
  · exact .of_open ((feedUpstream_kept rounds s s _ _ fed (.refl s)).closed.trans unshut)
  have unshut₁ := (feedUpstream_kept rounds s s _ _ fed (.refl s)).closed.trans unshut
  rcases Run.bind_eq_some prepared with ⟨_, s₂, filled, prepared⟩ | ⟨e, filled, -⟩
  rotate_left
  · have same := fillDownstream_closed tls.delivering s₁
    rw [Option.some.inj filled] at same
    exact .of_open (same.trans unshut₁)
  have unshut₂ : s₂.clientWriteShutdown = false := by
    have same := fillDownstream_closed tls.delivering s₁
    rw [Option.some.inj filled] at same
    exact same.trans unshut₁
  rcases Run.bind_eq_some prepared with ⟨_, s₃, modified, prepared⟩ | ⟨e, modified, -⟩
  rotate_left
  · cases modified
  cases modified
  have unshut₃ : (closeAfterClient tls.delivering s₂).clientWriteShutdown = false :=
    (closeAfterClient_kept s₂).closed.trans unshut₂
  have ends : Ends (closeAfterRemote tls.delivering (closeAfterClient tls.delivering s₂)).2 :=
    closeAfterRemote_ends unshut₃
  rcases Run.bind_eq_some prepared with ⟨_, s₄, closed, prepared⟩ | ⟨e, closed, -⟩
  rotate_left
  · rw [Option.some.inj closed] at ends
    exact ends
  rw [Option.some.inj closed] at ends
  split at prepared
  · cases prepared
    exact ends
  · refine Run.Preserves.bind (.ofIo ?_) (fun _ => .pure _) s₄ _ s' prepared ends
    exact fun s ends => ends.kept (register_kept _ s s (.refl s))

/-- Events end nothing. -/
theorem handle_closed {rounds : Nat} {wanted : Wanted} {event : Event}
    {result : Except IoError Unit}
    (handled : handle tls.delivering rounds wanted event s = some (result, s')) :
    s'.clientWriteShutdown = s.clientWriteShutdown := by
  let Same := fun s₁ : Relay (κ × Bytes) => s₁.clientWriteShutdown = s.clientWriteShutdown
  have kept : Run.Preserves Same (handle tls.delivering rounds wanted event) := by
    unfold handle
    cases event.token with
    | client =>
        refine .bind (.when (.ofIo fun s₁ same => (readClient_kept s₁).closed.trans same)) fun _ =>
          ?_
        refine .bind (.when fun s₁ result s₂ wrote same => ?_) fun _ =>
          .when (.modify fun s₁ same => same)
        obtain ⟨-, frame⟩ := writePending_frame wrote
        rw [frame]
        exact same
    | remote =>
        intro s₁ result s₂ done same
        exact (handleRemote_kept rounds wanted.remote event.readiness s₁ s₁ _ _ done
          (.refl s₁)).closed.trans same
  exact kept s _ _ handled rfl

theorem step_ends {rounds : Nat} {batch : Batch} {point point' : Point}
    (stepped : step tls.delivering rounds batch point s = some (point', s'))
    (unshut : s.clientWriteShutdown = false) :
    Ends s' := by
  rcases step_cases stepped with ⟨handled, result, -, prepared, -⟩ | ⟨wanted,
    result, -, polled, -⟩ |
    ⟨wanted, handled, -, -, rfl⟩ | ⟨wanted, handled, event, events, result, -, handling,
      -⟩ | ⟨result, -, -, rfl⟩
  · exact prepare_ends prepared unshut
  · have kept := poll_kept batch s
    rw [polled] at kept
    exact .of_open (kept.closed.trans unshut)
  · exact .of_open unshut
  · exact .of_open ((handle_closed handling).trans unshut)
  · exact .of_open unshut

/-- A relay that returns without an error is finished, and it has ended the client's stream. -/
theorem step_returns {rounds : Nat} {batch : Batch} {point : Point}
    (running : point ≠ .returned (.ok ()))
    (stepped : step tls.delivering rounds batch point s = some (.returned (.ok ()), s')) :
    s'.downstream.isEmpty = true ∧ s'.clientWriteShutdown = true := by
  rcases step_cases stepped with ⟨handled, result, -, prepared, last⟩ | ⟨wanted,
    result, -, polled, last⟩ |
    ⟨wanted, handled, -, last, -⟩ | ⟨wanted, handled, event, events, result, -, handling,
      last⟩ | ⟨result, here, last, -⟩
  · cases result with
    | error e => cases last
    | ok outcome =>
        cases outcome with
        | some wanted => cases last
        | none =>
            have done := prepare_none prepared
            simp only [finished, Bool.and_eq_true] at done
            obtain ⟨⟨⟨⟨-, ended⟩, -⟩, empty⟩, -⟩ := done
            obtain ⟨s₁, s₂, s₃, -, -, closed, ⟨-, -, rfl⟩ | ⟨no, -⟩⟩ := prepare_ok prepared
            · exact ⟨empty, closeAfterRemote_closes closed ended empty⟩
            · cases no
  · cases result with
    | error e => cases last
    | ok events => cases last
  · cases last
  · cases result with
    | error e => cases last
    | ok done => cases last
  · exact absurd last.symm running

/-! ### Runs -/

/-- What holds at every point of a run. -/
structure Served (point : Point) (s : Relay (κ × Bytes)) : Prop where
  delivered : Delivered none s
  returned : point = .returned (.ok ()) → s.downstream.isEmpty = true ∧ s.clientWriteShutdown = true

theorem Served.step {rounds : Nat} {batch : Batch} {point point' : Point} (served : Served point s)
    (stepped : Relay.step tls.delivering rounds batch point s = some (point', s')) :
    Served point' s' := by
  refine ⟨step_delivered served.delivered stepped, ?_⟩
  rintro rfl
  by_cases running : point = .returned (.ok ())
  · subst running
    cases stepped
    exact served.returned rfl
  · exact step_returns running stepped

/-- All that was read and none of it in the buffer has been sent. -/
theorem Delivered.sent {last : Option Bytes} (delivered : Delivered last s)
    (empty : s.downstream.isEmpty = true) :
    s.client.outgoing = s.received := by
  have stream := delivered.stream
  rw [Pending.remaining_of_isEmpty empty, List.append_nil] at stream
  exact stream

/-- The client gets what the TLS connection gives. In every run the bytes that the client has been
sent, and after them those in the buffer, at most a chunk, are exactly the plaintext read so far.
The client's stream is ended only by a step that finds the remote side ended and leaves the client
with all of it, and nothing is sent after that; a relay that returns without an error has done
so. -/
theorem plaintext_reaches_client {Meets : Point → Relay (κ × Bytes) → Prop} {t : κ}
    {client : PolledStream}
    (fresh : client.outgoing = []) {point : Point} {s : Relay (κ × Bytes)}
    (reached : Reaches tls.delivering Meets { connection := (t, []), client } point s) :
    s.client.outgoing ++ s.downstream.remaining = s.received ∧ s.downstream.bytes.length ≤ ioChunk ∧
      (point = .returned (.ok ()) → s.client.outgoing = s.received ∧ s.client.shut = true) ∧
      ∀ rounds batch point' s', step tls.delivering rounds batch point s = some (point', s') →
        (s.clientWriteShutdown = false → s'.clientWriteShutdown = true →
          s'.remoteEof = true ∧ s'.client.outgoing = s'.received) ∧
        (s.clientWriteShutdown = true → s'.client.outgoing = s.client.outgoing ∧
          s'.client.shut = true) := by
  have served : Served point s := by
    have preserved : ∀ rounds batch point s point' s', Served point s → Meets point s →
        Relay.step tls.delivering rounds batch point s = some (point', s') → Served point' s' :=
      fun _ _ _ _ _ _ served _ stepped => served.step stepped
    refine reached.invariant ⟨⟨?_, Nat.zero_le _, ?_, ?_⟩, ?_⟩ preserved
    · exact (congrArg (· ++ []) fresh)
    · intro no
      cases no
    · intro bytes no
      cases no
    · intro no
      cases no
  obtain ⟨delivered, returned⟩ := served
  refine ⟨delivered.stream, delivered.bounded, fun is => ?_,
    fun rounds batch point' s' stepped => ⟨?_, ?_⟩⟩
  · obtain ⟨empty, shut⟩ := returned is
    exact ⟨delivered.sent empty, delivered.closed shut⟩
  · intro unshut shut
    obtain ⟨ended, empty⟩ := step_ends stepped unshut shut
    exact ⟨ended, (step_delivered delivered stepped).sent empty⟩
  · intro shut
    have fixed : Delivered (some s.client.outgoing) s := by
      refine ⟨delivered.stream, delivered.bounded, delivered.closed, fun bytes is => ?_⟩
      cases is
      exact ⟨delivered.closed shut, rfl⟩
    obtain ⟨shut', same⟩ := (step_delivered fixed stepped).fixed _ rfl
    exact ⟨same, shut'⟩

/-- Three bytes of the server, and a client with room for two of them, whose own byte is on its
way. -/
def threeBytes : Relay (Bytes × Bytes) where
  connection := ([1, 2, 3], [])
  client := { incoming := [9], space := 2 }

/-- After one event the client has two of the bytes, and the third one waits. -/
theorem plaintext_reaches_client_example : ∃ point s,
    Reaches serving.delivering (fun _ _ => True) threeBytes point s ∧ s.client.outgoing = [1, 2] ∧
      s.received = [1, 2] ++ s.downstream.remaining := by
  have first :
      Reaches serving.delivering (fun _ _ => True) threeBytes (.top []) threeBytes := .start
  have polling := Reaches.step 1 {} first trivial rfl
  have polled := Reaches.step 1 {} polling trivial rfl
  have written := Reaches.step 2 {} polled trivial rfl
  refine ⟨_, _, written, rfl, ?_⟩
  exact (plaintext_reaches_client rfl written).1.symm

end Relay

end Commeatus.Transport
