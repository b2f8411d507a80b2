import Commeatus.Transport.TlsRelay

/-!
Bursts of ciphertext (`read_remote_tls` in `transport/src/tls.rs`).

rustls refuses to read while more than 16 KiB of decrypted plaintext are
unread. The loop that reads ciphertext only ends where the socket has no more,
and nothing is drained on the way, so what it reads adds up.
-/

namespace Commeatus.Transport

open Commeatus.Lib

/-- The limit of rustls on plaintext that is unread. -/
def receivedPlaintextLimit : Nat := 16 * 1024

def plaintextFull : IoError := ⟨.other, "received plaintext buffer full"⟩

/-- What one read of the socket comes to: ciphertext that completes records with so much plaintext,
or an interruption. -/
inductive Arrival where
  | records (plaintext : Nat)
  | interrupted
  deriving DecidableEq

def Arrival.plaintext : Arrival → Nat
  | .records plaintext => plaintext
  | .interrupted => 0

/-- The plaintext of all that is available. -/
def burst (arrivals : List Arrival) : Nat := (arrivals.map Arrival.plaintext).sum

variable {κ : Type}

/-- The reader of rustls on valid ciphertext. `unread` is the plaintext that was decrypted and not
read, `arrivals` what reads of the socket come to before it has no more. -/
structure BufferedReader (tls : Rustls κ) (unread : κ → Nat)
    (arrivals : κ → List Arrival) : Prop where
  full : ∀ t, receivedPlaintextLimit < unread t → tls.readTls t = (.error plaintextFull, t)
  records : ∀ t plaintext rest, unread t ≤ receivedPlaintextLimit →
    arrivals t = .records plaintext :: rest →
    ∃ count t₁ t₂, tls.readTls t = (.ok (count + 1), t₁) ∧ tls.processNewPackets t₁ = (.ok (), t₂) ∧
      unread t₂ = unread t + plaintext ∧ arrivals t₂ = rest
  interrupted : ∀ t rest, unread t ≤ receivedPlaintextLimit → arrivals t = .interrupted :: rest →
    ∃ e t₁, tls.readTls t = (.error e, t₁) ∧ e.kind = .interrupted ∧
      unread t₁ = unread t ∧ arrivals t₁ = rest
  ends : ∀ t, unread t ≤ receivedPlaintextLimit → arrivals t = [] →
    (∃ e t₁, tls.readTls t = (.error e, t₁) ∧ e.kind = .wouldBlock) ∨
      ∃ t₁, tls.readTls t = (.ok 0, t₁)
  written : ∀ t, unread (tls.writeTls t).2 = unread t ∧ arrivals (tls.writeTls t).2 = arrivals t
  writeTls : ∀ t, (tls.writeTls t).1 ≠ .error plaintextFull

namespace BufferedReader

variable {tls : Rustls κ} {unread : κ → Nat} {arrivals : κ → List Arrival}
    (reader : BufferedReader tls unread arrivals)

include reader

/-- The loop fails with the burst that exceeds the limit, and otherwise reads all of it. -/
theorem iterate_burst {available : List Arrival} {t : κ} (flag : Bool)
    (here : arrivals t = available) :
    ∃ result s', iterate (readRemoteTlsRound tls) (available.length + 1) (t, flag) =
      (some result, s') ∧
      ((receivedPlaintextLimit < unread t + burst available ∧ result = .error plaintextFull) ∨
        (unread t + burst available ≤ receivedPlaintextLimit ∧ result = .ok ())) := by
  induction available generalizing t with
  | nil =>
      by_cases excess : receivedPlaintextLimit < unread t
      · have round : readRemoteTlsRound tls (t, flag) =
            (.done (.error plaintextFull), (t, flag)) := by
          rw [readRemoteTlsRound, reader.full t excess]
          rfl
        exact ⟨_, _, iterate_done round 0, .inl ⟨excess, rfl⟩⟩
      · have room := Nat.le_of_not_lt excess
        rcases reader.ends t room here with ⟨e, t₁, read, blocks⟩ | ⟨t₁, read⟩
        · have round : readRemoteTlsRound tls (t, flag) = (.done (.ok ()), (t₁, flag)) := by
            rw [readRemoteTlsRound, read]
            dsimp only
            rw [if_pos blocks]
          exact ⟨_, _, iterate_done round 0, .inr ⟨room, rfl⟩⟩
        · have round : readRemoteTlsRound tls (t, flag) = (.done (.ok ()), (t₁, true)) := by
            rw [readRemoteTlsRound, read]
            rfl
          exact ⟨_, _, iterate_done round 0, .inr ⟨room, rfl⟩⟩
  | cons arrival available ih =>
      have sum : burst (arrival :: available) = arrival.plaintext + burst available := by
        simp [burst]
      by_cases excess : receivedPlaintextLimit < unread t
      · have round : readRemoteTlsRound tls (t, flag) =
            (.done (.error plaintextFull), (t, flag)) := by
          rw [readRemoteTlsRound, reader.full t excess]
          rfl
        exact ⟨_, _, iterate_done round _,
          .inl ⟨Nat.lt_of_lt_of_le excess (Nat.le_add_right _ _), rfl⟩⟩
      · have room := Nat.le_of_not_lt excess
        cases arrival with
        | records plaintext =>
            obtain ⟨count, t₁, t₂, read, processed, grown, rest⟩ :=
              reader.records t plaintext available room here
            have round : readRemoteTlsRound tls (t, flag) = (.again, (t₂, flag)) := by
              simp only [readRemoteTlsRound, read, processed]
            obtain ⟨result, s', looped, verdict⟩ := ih rest
            refine ⟨result, s', (iterate_again round _).trans looped, ?_⟩
            rw [sum, ← Nat.add_assoc, Arrival.plaintext, ← grown]
            exact verdict
        | interrupted =>
            obtain ⟨e, t₁, read, again, same, rest⟩ := reader.interrupted t available room here
            have round : readRemoteTlsRound tls (t, flag) = (.again, (t₁, flag)) := by
              rw [readRemoteTlsRound, read]
              dsimp only
              rw [if_neg (by rw [again]; decide), if_pos again]
            obtain ⟨result, s', looped, verdict⟩ := ih rest
            refine ⟨result, s', (iterate_again round _).trans looped, ?_⟩
            rw [sum, Arrival.plaintext, Nat.zero_add, ← same]
            exact verdict

theorem readRemoteTls_burst {rounds : Nat} {s : κ × Bool}
    (enough : (arrivals s.1).length < rounds) :
    ∃ result s', readRemoteTls tls rounds s = some (result, s') ∧
      ((receivedPlaintextLimit < unread s.1 + burst (arrivals s.1) ∧
        result = .error plaintextFull) ∨
        (unread s.1 + burst (arrivals s.1) ≤ receivedPlaintextLimit ∧ result = .ok ())) := by
  obtain ⟨result, s', looped, verdict⟩ := reader.iterate_burst (t := s.1) s.2 rfl
  exact ⟨result, s', Run.loop_of_iterate looped enough, verdict⟩

theorem readRemoteTls_full_iff {rounds : Nat} {s : κ × Bool}
    (enough : (arrivals s.1).length < rounds) :
    (∃ s', readRemoteTls tls rounds s = some (.error plaintextFull, s')) ↔
      receivedPlaintextLimit < unread s.1 + burst (arrivals s.1) := by
  obtain ⟨result, s', returned, verdict⟩ := reader.readRemoteTls_burst enough
  rw [returned]
  rcases verdict with ⟨excess, rfl⟩ | ⟨fits, rfl⟩
  · exact ⟨fun _ => excess, fun _ => ⟨s', rfl⟩⟩
  · constructor
    · rintro ⟨_, no⟩
      cases no
    · intro excess
      omega

/-! ### The callers -/

theorem writeRemoteTls_silent (rounds : Nat) :
    Run.Never plaintextFull (writeRemoteTls tls rounds) :=
  writeRemoteTls_never reader.writeTls rounds

/-- Writing ciphertext leaves what is read alone. -/
theorem writeRemoteTls_keeps (rounds : Nat) :
    Run.Keeps (fun t => (unread t, arrivals t)) (writeRemoteTls tls rounds) := by
  refine .loop fun t => ?_
  have kept : ∀ {result t'}, tls.writeTls t = (result, t') →
      (unread t', arrivals t') = (unread t, arrivals t) := by
    intro result t' wrote
    obtain ⟨same, rest⟩ := reader.written t
    rw [wrote] at same rest
    rw [same, rest]
  unfold writeRemoteTlsRound
  split
  · rfl
  split
  · rename_i wrote
    exact kept wrote
  · rename_i wrote
    exact kept wrote
  · rename_i wrote
    split
    · exact kept wrote
    · split <;> exact kept wrote

theorem readRemote_full_iff {rounds : Nat} {s : Relay κ}
    (enough : (arrivals s.connection).length < rounds) :
    (∃ s', Relay.readRemote tls rounds s = some (.error plaintextFull, s')) ↔
      receivedPlaintextLimit < unread s.connection + burst (arrivals s.connection) := by
  rw [← reader.readRemoteTls_full_iff (s := (s.connection, s.remoteEof)) enough]
  constructor
  · rintro ⟨s', failed⟩
    obtain ⟨t, inner, -⟩ := Run.of_zoom failed
    exact ⟨t, inner⟩
  · rintro ⟨t, inner⟩
    exact ⟨_, Run.zoom_of_some inner⟩

theorem handleRemote_full_iff {rounds : Nat} {interest : Interest} {event : Readiness} {s : Relay κ}
    (enough : (arrivals s.connection).length < rounds) :
    (∃ s', Relay.handleRemote tls rounds interest event s = some (.error plaintextFull, s')) ↔
      (event.readable && interest.readable) = true ∧
        receivedPlaintextLimit < unread s.connection + burst (arrivals s.connection) := by
  -- Only the read can fail so.
  have silent : Run.Never plaintextFull (do
      Run.when (event.writable && interest.writable) (Relay.writeRemote tls rounds)
      Run.when event.closing (Run.modify fun s : Relay κ => { s with remoteEof := true })) :=
    (Run.Never.when (.zoom (reader.writeRemoteTls_silent rounds))).bind fun _ => .when (.modify _)
  rw [← reader.readRemote_full_iff enough]
  constructor
  · rintro ⟨s', failed⟩
    rcases Run.bind_eq_error failed with reading | ⟨-, s₁, -, rest⟩
    · unfold Run.when at reading
      split at reading
      · rename_i reads
        exact ⟨reads, s', reading⟩
      · cases reading
    · exact absurd rest (silent s₁ s')
  · rintro ⟨reads, s', failed⟩
    have reading : Run.when (event.readable && interest.readable) (Relay.readRemote tls rounds) s =
        some (.error plaintextFull, s') := by
      rw [Run.when, reads]
      exact failed
    exact ⟨s', Run.bind_of_error reading⟩

theorem serviceIo_full_iff {rounds : Nat} {s : TlsFramedSession κ}
    (enough : (arrivals s.connection).length < rounds) :
    (∃ s', TlsFramedSession.serviceIo tls rounds s = some (.error plaintextFull, s')) ↔
      (∃ s₁, TlsFramedSession.flushTls tls rounds s = some (.ok (), s₁)) ∧ s.remoteEof = false ∧
        receivedPlaintextLimit < unread s.connection + burst (arrivals s.connection) := by
  have silent : Run.Never plaintextFull (TlsFramedSession.flushTls tls rounds) :=
    .zoom (reader.writeRemoteTls_silent rounds)
  have kept : ∀ {s₁}, TlsFramedSession.flushTls tls rounds s = some (.ok (), s₁) →
      unread s₁.connection = unread s.connection ∧ arrivals s₁.connection = arrivals s.connection ∧
        s₁.remoteEof = s.remoteEof := by
    intro s₁ flushed
    obtain ⟨t, inner, rfl⟩ := Run.of_zoom flushed
    have same := reader.writeRemoteTls_keeps rounds _ _ _ inner
    exact ⟨(Prod.mk.inj same).1, (Prod.mk.inj same).2, rfl⟩
  constructor
  · rintro ⟨s', failed⟩
    rcases Run.bind_eq_error failed with flushing | ⟨_, s₁, flushed, rest⟩
    · exact absurd flushing (silent s s')
    · obtain ⟨same, left, flag⟩ := kept flushed
      rcases Run.bind_eq_error rest with filling | ⟨_, s₂, -, flushing⟩
      · unfold TlsFramedSession.fillTls at filling
        split at filling
        · cases filling
        · rename_i going
          obtain ⟨t, inner, -⟩ := Run.of_zoom filling
          have excess :=
            (reader.readRemoteTls_full_iff (s := (s₁.connection, s₁.remoteEof)) (by rwa [left])).mp
              ⟨t, inner⟩
          rw [same, left] at excess
          refine ⟨⟨s₁, flushed⟩, ?_, excess⟩
          rw [← flag]
          simpa using going
      · exact absurd flushing (silent s₂ s')
  · rintro ⟨⟨s₁, flushed⟩, going, excess⟩
    obtain ⟨same, left, flag⟩ := kept flushed
    rw [← same, ← left] at excess
    obtain ⟨t, inner⟩ :=
      (reader.readRemoteTls_full_iff (s := (s₁.connection, s₁.remoteEof)) (by rwa [left])).mpr
        excess
    have filling : ∃ s', TlsFramedSession.fillTls tls rounds s₁ =
        some (.error plaintextFull, s') := by
      unfold TlsFramedSession.fillTls
      rw [if_neg (by rw [flag, going]; decide)]
      exact ⟨_, Run.zoom_of_some inner⟩
    obtain ⟨s', failed⟩ := filling
    exact ⟨s', (Run.bind_of_ok flushed).trans (Run.bind_of_error failed)⟩

end BufferedReader

/-- The loop that reads ciphertext fails because of unread plaintext exactly when what is unread and
what is available come to more than 16 KiB; so the stream relay returns that error on a readable
event, and a framed session from its service, and otherwise neither does. -/
theorem burst_fails_iff {tls : Rustls κ} {unread : κ → Nat} {arrivals : κ → List Arrival}
    (reader : BufferedReader tls unread arrivals) :
    (∀ rounds (s : κ × Bool), (arrivals s.1).length < rounds → ∃ result s',
      readRemoteTls tls rounds s = some (result, s') ∧
      ((receivedPlaintextLimit < unread s.1 + burst (arrivals s.1) ∧
        result = .error plaintextFull) ∨
        (unread s.1 + burst (arrivals s.1) ≤ receivedPlaintextLimit ∧ result = .ok ()))) ∧
    (∀ rounds batch wanted handled readiness events (s : Relay κ),
      (arrivals s.connection).length < rounds →
      ((∃ s', Relay.step tls rounds batch
        (.handling wanted handled (⟨.remote, readiness⟩ :: events)) s =
          some (.returned (.error plaintextFull), s')) ↔
        (readiness.readable && wanted.remote.readable) = true ∧
          receivedPlaintextLimit < unread s.connection + burst (arrivals s.connection))) ∧
    ∀ rounds (s : TlsFramedSession κ), (arrivals s.connection).length < rounds →
      ((∃ s', TlsFramedSession.serviceIo tls rounds s = some (.error plaintextFull, s')) ↔
        (∃ s₁, TlsFramedSession.flushTls tls rounds s = some (.ok (), s₁)) ∧ s.remoteEof = false ∧
          receivedPlaintextLimit < unread s.connection + burst (arrivals s.connection)) := by
  refine ⟨fun rounds s => reader.readRemoteTls_burst, ?_, fun rounds s => reader.serviceIo_full_iff⟩
  intro rounds batch wanted handled readiness events s enough
  rw [← reader.handleRemote_full_iff enough]
  constructor
  · rintro ⟨s', stepped⟩
    unfold Relay.step at stepped
    split at stepped
    · cases stepped
    · rename_i point s₁ proceeded
      cases stepped
      rcases Run.bind_eq_some proceeded with ⟨_, _, -, last⟩ | ⟨e, -, no⟩
      · cases last
      · cases no
    · rename_i e s₁ proceeded
      cases stepped
      rcases Run.bind_eq_error proceeded with failed | ⟨_, _, -, last⟩
      · exact ⟨s', failed⟩
      · cases last
  · rintro ⟨s', failed⟩
    have proceeded :
      Relay.proceed tls rounds batch (.handling wanted handled (⟨.remote, readiness⟩ :: events)) s =
        some (.error plaintextFull, s') := Run.bind_of_error failed
    exact ⟨s', by rw [Relay.step, proceeded]⟩

/-! ### A burst of one octet more than the limit -/

/-- A connection with what is unread, what the last read completed, and what reads are still to
come. -/
structure BurstyConnection where
  unread : Nat
  staged : Nat := 0
  arrivals : List Arrival

/-- A connection whose writer has nothing to send. -/
def bursty : Rustls BurstyConnection where
  write bytes t := (.ok bytes.length, t)
  read limit t :=
    if t.unread = 0 then (.error ⟨.wouldBlock, "no plaintext"⟩, t)
    else (.ok (List.replicate (min limit t.unread) 0),
      { t with unread := t.unread - min limit t.unread })
  wantsRead t := t.unread = 0
  wantsWrite _ := false
  readTls t :=
    if receivedPlaintextLimit < t.unread + t.staged then (.error plaintextFull, t)
    else
      match t.arrivals with
      | [] => (.error ⟨.wouldBlock, "no ciphertext"⟩, t)
      | .records plaintext :: rest => (.ok 1, ⟨t.unread, t.staged + plaintext, rest⟩)
      | .interrupted :: rest => (.error ⟨.interrupted, "interrupted"⟩, { t with arrivals := rest })
  writeTls t := (.ok 0, t)
  processNewPackets t := (.ok (), ⟨t.unread + t.staged, 0, t.arrivals⟩)
  sendCloseNotify t := t
  registry _ t := (.ok (), t)
  write_le := by
    intro bytes t n t' wrote
    cases wrote
    exact Nat.le_refl _
  read_le := by
    intro limit t bytes t' read
    split at read
    · cases read
    · cases read
      rw [List.length_replicate]
      exact Nat.min_le_left _ _

theorem bursty_bufferedReader :
    BufferedReader bursty (fun t => t.unread + t.staged) BurstyConnection.arrivals where
  full t excess := if_pos excess
  records t plaintext rest room next := by
    refine ⟨0, ⟨t.unread, t.staged + plaintext, rest⟩, _, ?_, rfl, ?_, rfl⟩
    · show (if _ then _ else _) = _
      rw [if_neg (Nat.not_lt.mpr room), next]
    · show t.unread + (t.staged + plaintext) + 0 = _
      omega
  interrupted t rest room next := by
    refine ⟨⟨.interrupted, "interrupted"⟩, { t with arrivals := rest }, ?_, rfl, rfl, rfl⟩
    show (if _ then _ else _) = _
    rw [if_neg (Nat.not_lt.mpr room), next]
  ends t room next := by
    refine .inl ⟨⟨.wouldBlock, "no ciphertext"⟩, t, ?_, rfl⟩
    show (if _ then _ else _) = _
    rw [if_neg (Nat.not_lt.mpr room), next]
  written t := ⟨rfl, rfl⟩
  writeTls t := fun no => nomatch no

/-- Two records are available, of 16 KiB and of one octet. -/
def twoRecords : BurstyConnection := { unread := 0, arrivals := [.records 16384, .records 1] }

/-- The relay that gets ready to read them returns an error, and so does the service of a framed
session. -/
theorem burst_ends_relay :
    (∃ s', Relay.step bursty 3 {}
      (.handling ⟨⟨true, false⟩, ⟨true, false⟩⟩ [] [⟨.remote, { readable := true }⟩])
      { connection := twoRecords, client := { incoming := [] } } =
        some (.returned (.error plaintextFull), s')) ∧
    ∃ s', TlsFramedSession.serviceIo bursty 3 { connection := twoRecords } =
      some (.error plaintextFull, s') := by
  exact ⟨⟨_, rfl⟩, ⟨_, rfl⟩⟩

theorem burst_fails_iff_example : ¬ ∃ s', TlsFramedSession.serviceIo bursty 2
    { connection := { unread := 0, arrivals := [.records 16384] } } =
      some (.error plaintextFull, s') := by
  obtain ⟨-, -, service⟩ := burst_fails_iff bursty_bufferedReader
  rw [service 2 _ (by decide)]
  rintro ⟨-, -, excess⟩
  exact absurd excess (by decide)

end Commeatus.Transport
