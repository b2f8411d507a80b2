import Commeatus.Transport.TlsRelay

/-!
Readiness events in the TLS relay.

The client's socket is registered again only when the interest in it changes.
An event is handled with one read of a chunk, and with writes until the socket
refuses more or `downstream` is empty. What the one read leaves has no event to
announce it, and when `downstream` is filled again neither has the space that is
left or that comes free later, unless the interest happens to change.
-/

namespace Commeatus.Transport.Relay

open Commeatus.Lib PolledStream

variable {κ : Type} {tls : Rustls κ}

/-- The reader of rustls: it returns plaintext exactly while some is waiting, and the writer does
not touch it. -/
structure PlaintextReader (tls : Rustls κ) (waiting : κ → Bool) : Prop where
  reads : ∀ t, waiting t = true ↔ ∃ bytes, bytes ≠ [] ∧ (tls.read ioChunk t).1 = .ok bytes
  write_keeps : ∀ bytes t, waiting (tls.write bytes t).2 = waiting t

section Interest

variable (free : κ → Nat) (waiting : κ → Bool)

/-- The remote side has ended and nothing of it is left for the client. -/
def remoteDone (s : Relay κ) : Bool :=
  s.remoteEof && (s.downstream.isEmpty && !waiting s.connection) && !s.clientWriteShutdown

/-- The interest in the client's socket that the coming round has. It reads on if the client has not
ended and the chunk in `upstream` fits the TLS writer; it writes if there is something to write. -/
def nextInterest (s : Relay κ) : Interest where
  readable := !s.clientEof && decide (s.upstream.remaining.length ≤ free s.connection) &&
    !remoteDone waiting s
  writable := !s.downstream.isEmpty || waiting s.connection

/-- A round that keeps the client's registration follows events that left nothing behind: the read
emptied the socket if no event is due again, and the writes did not empty `downstream` if the room
for more is neither reported nor going to be. -/
def NothingLeft : Point → Relay κ → Prop
  | .top handled, s =>
      ∀ event, ⟨.client, event⟩ ∈ handled →
        s.clientRegistration =
          ⟨true, (nextInterest free waiting s).readable, (nextInterest free waiting s).writable⟩ →
        (event.readable = true → s.clientRegistration.readable = true →
          s.client.outstanding = false → s.client.unread = []) ∧
        (event.writable = true → s.clientRegistration.writable = true →
          s.downstream.isEmpty = true → RoomDue s.client)
  | _, _ => True

end Interest

/-! ### The round up to its poll -/

theorem updateRegistration_cases (readable writable : Bool) (state : Registration) :
    (readable = false ∧ writable = false ∧
      (updateRegistration readable writable state).2.registered = false) ∨
    ((readable || writable) = true ∧ state = ⟨true, readable, writable⟩ ∧
      updateRegistration readable writable state = (none, state)) ∨
    ∃ call, (readable || writable) = true ∧ state ≠ ⟨true, readable, writable⟩ ∧
      (call = .register ⟨readable, writable⟩ ∨ call = .reregister ⟨readable, writable⟩) ∧
      updateRegistration readable writable state = (some call, ⟨true, readable, writable⟩) := by
  obtain ⟨registered, readable', writable'⟩ := state
  unfold updateRegistration
  by_cases nothing : (!readable && !writable) = true
  · rw [if_pos nothing]
    simp only [Bool.and_eq_true, Bool.not_eq_true'] at nothing
    refine .inl ⟨nothing.1, nothing.2, ?_⟩
    cases registered <;> rfl
  rw [if_neg nothing]
  have something : (readable || writable) = true := by
    revert nothing
    cases readable <;> cases writable <;> decide
  cases registered with
  | false => exact .inr (.inr ⟨_, something, nofun, .inl rfl, rfl⟩)
  | true =>
      by_cases changed : (readable' != readable || writable' != writable) = true
      · refine .inr (.inr ⟨_, something, ?_, .inr rfl, ?_⟩)
        · rintro same
          cases same
          simp at changed
        · simp [changed]
      · simp only [Bool.or_eq_true, bne_iff_ne, ne_eq, not_or, not_not] at changed
        obtain ⟨rfl, rfl⟩ := changed
        refine .inr (.inl ⟨something, rfl, ?_⟩)
        simp

theorem registerClient_cases {interest : Interest} {s s' : Relay κ}
    (registered : registerClient interest s = (.ok (), s')) :
    (interest = ⟨false, false⟩ ∧ s'.clientRegistration.registered = false) ∨
    ((interest.readable || interest.writable) = true ∧
      s.clientRegistration = ⟨true, interest.readable, interest.writable⟩ ∧ s' = s) ∨
    ((interest.readable || interest.writable) = true ∧
      s.clientRegistration ≠ ⟨true, interest.readable, interest.writable⟩ ∧
      s'.clientRegistration = ⟨true, interest.readable, interest.writable⟩ ∧
      s'.client.interest = some interest ∧
      s'.client.outstanding = (s'.client.readiness interest).any ∧
      (interest.writable = true → s'.client.space = 0 → s'.client.noSpace = true)) := by
  unfold registerClient at registered
  rcases updateRegistration_cases interest.readable interest.writable s.clientRegistration with
    ⟨noRead, noWrite, unregistered⟩ | ⟨asks, same, kept⟩ |
    ⟨call, asks, changed, registers, updated⟩
  · refine .inl ⟨?_, ?_⟩
    · exact Interest.ext noRead noWrite
    · split at registered
      · rename_i updated
        cases registered
        rw [updated] at unregistered
        exact unregistered
      · rename_i updated
        rw [updated] at unregistered
        split at registered
        · cases registered
          exact unregistered
        · cases registered
  · rw [kept] at registered
    cases registered
    exact .inr (.inl ⟨asks, same, rfl⟩)
  · rw [updated] at registered
    dsimp only at registered
    split at registered
    · rename_i client called
      cases registered
      exact .inr (.inr ⟨asks, changed, rfl, registry_register registers called⟩)
    · cases registered

theorem registerRemote_frame {interest : Interest} {s s' : Relay κ} {result : Except IoError Unit}
    (registered : registerRemote tls interest s = (result, s')) :
    s'.client = s.client ∧ s'.clientRegistration = s.clientRegistration := by
  unfold registerRemote at registered
  split at registered
  · cases registered
    exact ⟨rfl, rfl⟩
  · split at registered
    · cases registered
      exact ⟨rfl, rfl⟩
    · cases registered
      exact ⟨rfl, rfl⟩

/-- Feeding changes the connection and `upstream`, and no plaintext of the remote side. -/
theorem feedUpstream_frame {waiting : κ → Bool}
    (reader : PlaintextReader tls waiting) {rounds : Nat}
    {s s' : Relay κ} {result : Except IoError Unit}
    (fed : feedUpstream tls rounds s = some (result, s')) :
    waiting s'.connection = waiting s.connection ∧
      s' = { s with connection := s'.connection, upstream := s'.upstream } := by
  let Frame := fun s₁ : Relay κ => waiting s₁.connection = waiting s.connection ∧
    s₁ = { s with connection := s₁.connection, upstream := s₁.upstream }
  have kept : Run.Preserves Frame (feedUpstream tls rounds) := by
    refine .bind (.loop fun s₁ h => ?_) fun _ => .modify fun s₁ h => ⟨h.1, by rw [h.2]⟩
    have same := (reader.write_keeps s₁.upstream.remaining s₁.connection).trans h.1
    unfold feedUpstreamRound
    split
    · exact h
    split
    · rename_i answer
      rw [answer] at same
      exact ⟨same, by rw [h.2]⟩
    · rename_i answer
      rw [answer] at same
      exact ⟨same, by rw [h.2]⟩
    · rename_i answer
      rw [answer] at same
      split
      · exact ⟨same, by rw [h.2]⟩
      split
      · exact ⟨same, by rw [h.2]⟩
      · exact ⟨same, by rw [h.2]⟩
  exact kept s result s' fed ⟨rfl, rfl⟩

/-- After filling, `downstream` is empty where it was and no plaintext was waiting. -/
theorem fillDownstream_frame {waiting : κ → Bool}
    (reader : PlaintextReader tls waiting) {s s' : Relay κ}
    (filled : fillDownstream tls s = (.ok (), s')) :
    s'.downstream.isEmpty = (s.downstream.isEmpty && !waiting s.connection) ∧
      s' = { s with connection := s'.connection, downstream := s'.downstream } := by
  have reads := reader.reads s.connection
  unfold fillDownstream at filled
  cases empty : s.downstream.isEmpty with
  | false =>
      rw [empty] at filled
      cases filled
      exact ⟨empty, rfl⟩
  | true =>
      rw [empty] at filled
      simp only [Bool.not_true, Bool.false_eq_true, if_false, Bool.true_and] at filled ⊢
      match answer : tls.read ioChunk s.connection with
      | (.ok bytes, connection) =>
          rw [answer] at filled reads
          cases filled
          refine ⟨?_, rfl⟩
          cases bytes with
          | nil =>
              have none : waiting s.connection = false := by
                refine Bool.eq_false_iff.mpr fun waits => ?_
                obtain ⟨bytes, some, same⟩ := reads.mp waits
                cases same
                exact some rfl
              rw [none]
              rfl
          | cons b rest =>
              rw [reads.mpr ⟨b :: rest, List.cons_ne_nil b rest, rfl⟩]
              rfl
      | (.error e, connection) =>
          have none : waiting s.connection = false := by
            refine Bool.eq_false_iff.mpr fun waits => ?_
            obtain ⟨bytes, -, same⟩ := reads.mp waits
            rw [answer] at same
            cases same
          rw [answer] at filled
          dsimp only at filled
          rw [none]
          split at filled
          · cases filled
            exact ⟨rfl, rfl⟩
          split at filled
          · cases filled
            exact ⟨rfl, rfl⟩
          · cases filled

theorem closeAfterClient_frame (tls : Rustls κ) (s : Relay κ) : ∃ connection closeNotify,
    closeAfterClient tls s = { s with connection, closeNotify } := by
  unfold closeAfterClient notifyClose
  split
  · split
    · exact ⟨_, _, rfl⟩
    · exact ⟨_, _, rfl⟩
  · exact ⟨_, _, rfl⟩

/-- The end of the remote side ends the relay's interest in the client, and changes nothing
otherwise. -/
theorem closeAfterRemote_cases {s s' : Relay κ} (closed : closeAfterRemote tls s = (.ok (), s')) :
    ((s.remoteEof && s.downstream.isEmpty && !s.clientWriteShutdown) = true ∧ s'.clientEof = true ∧
      s'.downstream = s.downstream) ∨
    ((s.remoteEof && s.downstream.isEmpty && !s.clientWriteShutdown) = false ∧ s' = s) := by
  unfold closeAfterRemote at closed
  split at closed
  · rename_i ends
    split at closed
    · cases closed
    · cases closed
      refine .inl ⟨ends, ?_, ?_⟩
      · unfold notifyClose
        split
        · cases s.clientEnd <;> rfl
        · cases s.clientEnd <;> rfl
      · unfold notifyClose
        split
        · rfl
        · rfl
  · rename_i goes
    cases closed
    exact .inr ⟨Bool.eq_false_iff.mpr goes, rfl⟩

theorem register_client {wanted : Wanted} {s s' : Relay κ}
    (registered : register tls wanted s = (.ok (), s')) :
    ∃ s₁, registerClient wanted.client s = (.ok (), s₁) ∧ s'.client = s₁.client ∧
      s'.clientRegistration = s₁.clientRegistration := by
  obtain ⟨_, s₁, first, rest⟩ := IoM.bind_eq_ok.mp registered
  obtain ⟨_, s₂, remote, last⟩ := IoM.bind_eq_ok.mp rest
  obtain ⟨client, registration⟩ := registerRemote_frame remote
  split at last
  · cases last
  · cases last
    exact ⟨s₁, first, client, registration⟩

section Prepare

variable {free : κ → Nat} {waiting : κ → Bool} (writer : BufferedWriter tls free)
  (reader : PlaintextReader tls waiting)

include writer reader

/-- A round wants the interest that its state announces. Where it wants any, it has not touched the
client's socket before it registers. -/
theorem wanted_client {rounds : Nat} {s s₁ s₂ s₃ : Relay κ}
    (fed : feedUpstream tls rounds s = some (.ok (), s₁))
    (filled : fillDownstream tls s₁ = (.ok (), s₂))
    (closed : closeAfterRemote tls (closeAfterClient tls s₂) = (.ok (), s₃)) :
    (wanted tls s₃).client = nextInterest free waiting s ∧
      ((wanted tls s₃).client = ⟨false, false⟩ ∨
        (s₃.client = s.client ∧ s₃.clientRegistration = s.clientRegistration)) := by
  obtain ⟨same₁, frame₁⟩ := feedUpstream_frame reader fed
  have empty₁ := feedUpstream_isEmpty writer fed
  obtain ⟨empty₂, frame₂⟩ := fillDownstream_frame reader filled
  obtain ⟨connection, closeNotify, frame₃⟩ := closeAfterClient_frame tls s₂
  rw [frame₃] at closed
  have upstream :
      s₂.upstream.isEmpty = decide (s.upstream.remaining.length ≤ free s.connection) := by
    rw [frame₂]
    exact empty₁
  have downstream : s₂.downstream.isEmpty = (s.downstream.isEmpty && !waiting s.connection) := by
    rw [empty₂, same₁, frame₁]
  have kept : s₂.client = s.client ∧ s₂.clientRegistration = s.clientRegistration ∧
      s₂.clientEnd = s.clientEnd ∧ s₂.remoteEof = s.remoteEof ∧
      s₂.clientWriteShutdown = s.clientWriteShutdown := by
    rw [frame₂, frame₁]
    exact ⟨rfl, rfl, rfl, rfl, rfl⟩
  obtain ⟨client, registration, ended, eof, shut⟩ := kept
  have done : (s₂.remoteEof && s₂.downstream.isEmpty && !s₂.clientWriteShutdown) =
      remoteDone waiting s := by
    rw [eof, downstream, shut, remoteDone]
  have writes : (!s₂.downstream.isEmpty) = (nextInterest free waiting s).writable := by
    rw [downstream, Bool.not_and, Bool.not_not]
    rfl
  rcases closeAfterRemote_cases closed with ⟨ends, eof₃, downstream₃⟩ | ⟨goes, rfl⟩
  · -- The remote side is done: nothing is wanted of the client any more.
    have empty : s₂.downstream.isEmpty = true := by
      simp only [Bool.and_eq_true] at ends
      exact ends.1.2
    have nothing : (wanted tls s₃).client = ⟨false, false⟩ := by
      simp only [wanted, eof₃, downstream₃, empty, Bool.not_true, Bool.false_and]
    refine ⟨?_, .inl nothing⟩
    have ended : remoteDone waiting s = true := done.symm.trans ends
    have silent : (nextInterest free waiting s).writable = false := by
      rw [← writes, empty]
      rfl
    have deaf : (nextInterest free waiting s).readable = false := by
      simp only [nextInterest, ended, Bool.not_true, Bool.and_false]
    exact nothing.trans (Interest.ext deaf.symm silent.symm)
  · refine ⟨?_, .inr ⟨client, registration⟩⟩
    have reads : (!s₂.clientEof && s₂.upstream.isEmpty) =
        (nextInterest free waiting s).readable := by
      have going : remoteDone waiting s = false := done.symm.trans goes
      simp only [nextInterest, clientEof, ended, upstream, going, Bool.not_false, Bool.and_true]
    have fields : (wanted tls { s₂ with connection, closeNotify }).client =
        ⟨!s₂.clientEof && s₂.upstream.isEmpty, !s₂.downstream.isEmpty⟩ := rfl
    rw [fields, reads, writes]

/-- The registration follows the interest: there is none, or it is the one from before and the
socket was not touched, or it is made anew. -/
theorem prepare_client {rounds : Nat} {s s' : Relay κ} {wanted : Wanted}
    (prepared : prepare tls rounds s = some (.ok (some wanted), s')) :
    wanted.client = nextInterest free waiting s ∧
    ((wanted.client = ⟨false, false⟩ ∧ s'.clientRegistration.registered = false) ∨
      ((wanted.client.readable || wanted.client.writable) = true ∧
        s.clientRegistration = ⟨true, wanted.client.readable, wanted.client.writable⟩ ∧
        s'.clientRegistration = s.clientRegistration ∧ s'.client = s.client) ∨
      (s.clientRegistration ≠ ⟨true, wanted.client.readable, wanted.client.writable⟩ ∧
        s'.clientRegistration = ⟨true, wanted.client.readable, wanted.client.writable⟩ ∧
        s'.client.interest = some wanted.client ∧
        s'.client.outstanding = (s'.client.readiness wanted.client).any ∧
        (wanted.client.writable = true → s'.client.space = 0 → s'.client.noSpace = true))) := by
  obtain ⟨s₁, s₂, s₃, fed, filled, closed, ⟨-, none, -⟩ | ⟨some, registered⟩⟩ := prepare_ok prepared
  · cases none
  cases some
  obtain ⟨interest, untouched⟩ := wanted_client writer reader fed filled closed
  obtain ⟨s₄, first, client, registration⟩ := register_client registered
  refine ⟨interest, ?_⟩
  rw [client, registration]
  rcases registerClient_cases first with unregistered | ⟨asks, same, rfl⟩ | ⟨asks, changed, anew⟩
  · exact .inl unregistered
  · rcases untouched with nothing | ⟨client, registration⟩
    · rw [nothing] at asks
      cases asks
    · rw [registration] at same
      exact .inr (.inl ⟨asks, same, registration, client⟩)
  · rcases untouched with nothing | ⟨-, registration⟩
    · rw [nothing] at asks
      cases asks
    · rw [registration] at changed
      exact .inr (.inr ⟨changed, anew⟩)

end Prepare

/-! ### What stands ready at each point -/

def asksRead (s : Relay κ) : Bool :=
  s.clientRegistration.registered && s.clientRegistration.readable

def asksWrite (s : Relay κ) : Bool :=
  s.clientRegistration.registered && s.clientRegistration.writable

/-- An event of the client among those given has a flag. -/
def Seen (flag : Readiness → Bool) (events : List Event) : Prop :=
  ∃ event, ⟨.client, event⟩ ∈ events ∧ flag event = true

/-- A readable event of this batch accounts for unread bytes that no event announces. -/
def ReadSeen : Point → Prop
  | .top handled => Seen Readiness.readable handled
  | .handling _ handled events => Seen Readiness.readable (handled ++ events)
  | _ => False

/-- A writable event of this batch accounts for space that is not announced; once it is handled,
`downstream` is empty. -/
def WriteSeen (s : Relay κ) : Point → Prop
  | .top handled => Seen Readiness.writable handled ∧ s.downstream.isEmpty = true
  | .handling _ handled events =>
      Seen Readiness.writable events ∨
        (Seen Readiness.writable handled ∧ s.downstream.isEmpty = true)
  | _ => False

/-- The interest of the round is the registered one. -/
def Wants (s : Relay κ) : Point → Prop
  | .waiting wanted | .handling wanted _ _ =>
      wanted.client.readable = asksRead s ∧ wanted.client.writable = asksWrite s
  | _ => True

/-- Up to the return: the registry knows the interest, and readiness that no event announces was
announced in the batch at hand. -/
structure Announced (point : Point) (s : Relay κ) : Prop where
  wants : Wants s point
  tracksRead : asksRead s = true → s.client.interest.any (·.readable) = true
  tracksWrite : asksWrite s = true → s.client.interest.any (·.writable) = true
  read : asksRead s = true → s.client.unread ≠ [] → s.client.outstanding = false → ReadSeen point
  write : asksWrite s = true → RoomDue s.client ∨ WriteSeen s point

/-- The relay has not returned. -/
def Running : Point → Prop
  | .returned _ => False
  | _ => True

theorem readiness_any_of_unread {c : PolledStream} {interest : Interest}
    (asks : interest.readable = true) (unread : c.unread ≠ []) :
    (c.readiness interest).readable = true ∧ (c.readiness interest).any = true := by
  have pending : c.unread.isEmpty = false :=
    Bool.eq_false_iff.mpr fun empty => unread (List.isEmpty_iff.mp empty)
  have flag : (c.readiness interest).readable = true := by
    simp [readiness, asks, pending]
  refine ⟨flag, ?_⟩
  simp [Readiness.any, flag]

theorem readiness_any_of_space {c : PolledStream} {interest : Interest}
    (asks : interest.writable = true) (space : 0 < c.space) :
    (c.readiness interest).writable = true ∧ (c.readiness interest).any = true := by
  have flag : (c.readiness interest).writable = true := by
    simp [readiness, asks, space]
  refine ⟨flag, ?_⟩
  simp [Readiness.any, flag]

section Round

variable {free : κ → Nat} {waiting : κ → Bool} (writer : BufferedWriter tls free)
  (reader : PlaintextReader tls waiting)

include writer reader

/-- A round polls with an event due for all it could do, where its events left nothing behind. -/
theorem prepare_announced {rounds : Nat} {handled : List Event} {s s' : Relay κ} {wanted : Wanted}
    (h : Announced (.top handled) s) (nothing : NothingLeft free waiting (.top handled) s)
    (prepared : prepare tls rounds s = some (.ok (some wanted), s')) :
    Announced (.waiting wanted) s' := by
  obtain ⟨interest, ⟨none, unregistered⟩ | ⟨-, before, registration, client⟩ |
    ⟨-, registration, asks, due, refused⟩⟩ := prepare_client writer reader prepared
  · have deaf : asksRead s' = false := by rw [asksRead, unregistered, Bool.false_and]
    have mute : asksWrite s' = false := by rw [asksWrite, unregistered, Bool.false_and]
    refine ⟨?_, ?_, ?_, ?_, ?_⟩
    · rw [Wants, none, deaf, mute]
      exact ⟨rfl, rfl⟩
    · rw [deaf]
      exact nofun
    · rw [mute]
      exact nofun
    · rw [deaf]
      exact nofun
    · rw [mute]
      exact nofun
  · -- The registration stays, and with it what the last events left.
    have reads : asksRead s = wanted.client.readable := by rw [asksRead, before, Bool.true_and]
    have writes : asksWrite s = wanted.client.writable := by rw [asksWrite, before, Bool.true_and]
    have reads' : asksRead s' = asksRead s := by rw [asksRead, registration, asksRead]
    have writes' : asksWrite s' = asksWrite s := by rw [asksWrite, registration, asksWrite]
    have same := before
    rw [interest] at same
    refine ⟨⟨by rw [reads', reads], by rw [writes', writes]⟩, ?_, ?_, ?_, ?_⟩
    · rw [reads', client]
      exact h.tracksRead
    · rw [writes', client]
      exact h.tracksWrite
    · rw [reads', client]
      intro asks unread quiet
      obtain ⟨event, member, flag⟩ := h.read asks unread quiet
      refine unread ((nothing event member same).1 flag ?_ quiet)
      rw [before, ← reads]
      exact asks
    · rw [writes', client]
      intro asks
      refine .inl ?_
      rcases h.write asks with room | ⟨⟨event, member, flag⟩, empty⟩
      · exact room
      · refine (nothing event member same).2 flag ?_ empty
        rw [before, ← writes]
        exact asks
  · have reads : asksRead s' = wanted.client.readable := by
      rw [asksRead, registration, Bool.true_and]
    have writes : asksWrite s' = wanted.client.writable := by
      rw [asksWrite, registration, Bool.true_and]
    refine ⟨⟨reads.symm, writes.symm⟩, ?_, ?_, ?_, ?_⟩
    · rw [reads, asks]
      exact id
    · rw [writes, asks]
      exact id
    · rw [reads]
      intro readable unread quiet
      rw [due, (readiness_any_of_unread readable unread).2] at quiet
      cases quiet
    · rw [writes]
      intro writable
      refine .inl ⟨fun space => ?_, refused writable⟩
      rw [due]
      exact (readiness_any_of_space writable space).2

end Round

/-! ### Events -/

theorem Batch.mem_events (batch : Batch) (event : Readiness) :
    ⟨.client, event⟩ ∈ batch.events (some event) := by
  unfold Batch.events
  dsimp only
  split
  · exact List.mem_append_left _ (List.mem_singleton.mpr rfl)
  · exact List.mem_append_right _ (List.mem_singleton.mpr rfl)

/-- The batch of a poll holds the event that was due. -/
theorem poll_announced {batch : Batch} {wanted : Wanted} {events : List Event} {s s' : Relay κ}
    (h : Announced (.waiting wanted) s) (polled : poll batch s = (.ok events, s')) :
    Announced (.handling wanted [] events) s' := by
  unfold poll at polled
  obtain ⟨c, later, ⟨e, failed⟩ | ⟨interest, -, asks, delivered⟩ | ⟨unasked, none⟩⟩ :=
    poll_cases s.client
  · rw [failed] at polled
    cases polled
  · rw [delivered] at polled
    cases polled
    -- What is ready now shows in the flags of the event.
    have tracksRead : asksRead s = true → interest.readable = true := by
      intro reads
      have tracked := h.tracksRead reads
      rw [← later.interest, asks] at tracked
      exact tracked
    have tracksWrite : asksWrite s = true → interest.writable = true := by
      intro writes
      have tracked := h.tracksWrite writes
      rw [← later.interest, asks] at tracked
      exact tracked
    refine ⟨h.wants, ?_, ?_, ?_, ?_⟩
    · intro reads
      show c.interest.any _ = true
      rw [asks]
      exact tracksRead reads
    · intro writes
      show c.interest.any _ = true
      rw [asks]
      exact tracksWrite writes
    · intro reads unread _
      obtain ⟨flag, any⟩ := readiness_any_of_unread (c := c) (tracksRead reads) unread
      rw [any]
      exact ⟨_, batch.mem_events _, flag⟩
    · intro writes
      have room : RoomDue c := by
        refine later.room (h.tracksWrite writes) ((h.write writes).resolve_right id)
      by_cases space : 0 < c.space
      · obtain ⟨flag, any⟩ := readiness_any_of_space (c := c) (tracksWrite writes) space
        rw [any]
        exact .inr (.inl ⟨_, batch.mem_events _, flag⟩)
      · exact .inl ⟨fun some => absurd some space, room.later⟩
  · rw [none] at polled
    cases polled
    have settles := later.settles
    refine ⟨h.wants, ?_, ?_, ?_, ?_⟩
    · show _ → c.interest.any _ = true
      rw [later.interest]
      exact h.tracksRead
    · show _ → c.interest.any _ = true
      rw [later.interest]
      exact h.tracksWrite
    · intro reads unread quiet
      obtain ⟨before, kept⟩ := settles.quiet quiet
      exact (h.read reads (kept (h.tracksRead reads) unread) before).elim
    · intro writes
      exact .inl (later.room (h.tracksWrite writes) ((h.write writes).resolve_right id))

/-- What handling an event does to the client's socket and to `downstream`. -/
structure Handles (s s' : Relay κ) : Prop where
  settles : Settles s.client s'.client
  registration : s'.clientRegistration = s.clientRegistration
  empty : s.downstream.isEmpty = true → s'.downstream.isEmpty = true

theorem Handles.refl (s : Relay κ) : Handles s s := ⟨.refl _, rfl, id⟩

theorem Handles.trans {s₁ s₂ s₃ : Relay κ} (first : Handles s₁ s₂) (next : Handles s₂ s₃) :
    Handles s₁ s₃ :=
  ⟨first.settles.trans next.settles, next.registration.trans first.registration,
    fun empty => next.empty (first.empty empty)⟩

theorem readClient_handles (s : Relay κ) : Handles s (readClient s).2 := by
  have settles := read_settles (show 0 < ioChunk by decide) s.client
  unfold readClient
  split
  · exact .refl s
  split
  · rename_i answer
    rw [answer] at settles
    exact ⟨settles, rfl, id⟩
  · rename_i answer
    rw [answer] at settles
    exact ⟨settles, rfl, id⟩
  · rename_i answer
    rw [answer] at settles
    split
    · exact ⟨settles, rfl, id⟩
    split
    · exact ⟨settles, rfl, id⟩
    · exact ⟨settles, rfl, id⟩

/-- A read leaves the room for sending to the kernel. -/
theorem readClient_room (s : Relay κ) (asks : s.client.interest.any (·.writable) = true)
    (due : RoomDue s.client) : RoomDue (readClient s).2.client := by
  have room := read_room (show 0 < ioChunk by decide) asks due
  unfold readClient
  split
  · exact due
  split
  · rename_i answer
    rw [answer] at room
    exact room
  · rename_i answer
    rw [answer] at room
    exact room
  · rename_i answer
    rw [answer] at room
    split
    · exact room
    split
    · exact room
    · exact room

theorem writePendingRound_handles (s : Relay κ) : Handles s (writePendingRound s).2 := by
  have settles := write_settles s.downstream.remaining s.client
  unfold writePendingRound
  split
  · exact .refl s
  rename_i pending
  split
  · rename_i answer
    rw [answer] at settles
    exact ⟨settles, rfl, id⟩
  · rename_i answer
    rw [answer] at settles
    exact ⟨settles, rfl, fun empty => absurd empty pending⟩
  · rename_i answer
    rw [answer] at settles
    split
    · exact ⟨settles, rfl, id⟩
    split
    · exact ⟨settles, rfl, id⟩
    · exact ⟨settles, rfl, id⟩

/-- Writing ends with nothing to write or with a write that was refused. -/
theorem writePendingRound_done {s s' : Relay κ}
    (done : writePendingRound s = (.done (.ok ()), s')) :
    s'.downstream.isEmpty = true ∨ RoomDue s'.client := by
  unfold writePendingRound at done
  split at done
  · rename_i empty
    cases done
    exact .inl empty
  split at done
  · cases done
  · cases done
  · rename_i e client answer
    obtain ⟨c, -, ⟨e', failed, hard⟩ | ⟨full, refused⟩ | ⟨n, noSpace, -, wrote⟩⟩ :=
      write_cases s.downstream.remaining s.client
    · cases answer.symm.trans failed
      rw [if_neg hard] at done
      split at done
      · cases done
      · cases done
    · cases answer.symm.trans refused
      cases done
      exact .inr ⟨fun some => absurd full some.ne', fun _ => rfl⟩
    · cases answer.symm.trans wrote

theorem writePending_handles {rounds : Nat} {s s' : Relay κ}
    (wrote : writePending rounds s = some (.ok (), s')) :
    Handles s s' ∧ (s'.downstream.isEmpty = true ∨ RoomDue s'.client) := by
  obtain ⟨_, s₁, looped, last⟩ | ⟨e, -, same⟩ := Run.bind_eq_some wrote
  rotate_left
  · cases same
  have kept : Run.Preserves (Handles s) (Run.loop rounds writePendingRound) :=
    .loop fun s₁ h => h.trans (writePendingRound_handles s₁)
  have handles := kept s _ s₁ looped (.refl s)
  obtain ⟨s₂, done⟩ := Run.loop_returns looped
  cases last
  have settled := Pending.isEmpty_settle s₁.downstream
  refine ⟨⟨handles.settles, handles.registration, fun empty => settled.trans (handles.empty empty)⟩,
    ?_⟩
  rcases writePendingRound_done done with empty | room
  · exact .inl (settled.trans empty)
  · exact .inr room

theorem when_ok {condition : Bool} {x : Run (Relay κ) Unit} {s s' : Relay κ}
    (h : Run.when condition x s = some (.ok (), s')) :
    (condition = true ∧ x s = some (.ok (), s')) ∨ (condition = false ∧ s' = s) := by
  cases condition with
  | true => exact .inl ⟨rfl, h⟩
  | false =>
      cases h
      exact .inr ⟨rfl, rfl⟩

/-- Writes end with `downstream` empty or refused; where none are made, the room stays announced. -/
structure Writes (writes : Bool) (s s' : Relay κ) : Prop where
  ended : writes = true → s'.downstream.isEmpty = true ∨ RoomDue s'.client
  room : writes = false → s.client.interest.any (·.writable) = true → RoomDue s.client →
    RoomDue s'.client

theorem handleClient_handles {rounds : Nat} {interest : Interest}
    {event : Readiness} {s s' : Relay κ}
    (handled : handleClient rounds interest event s = some (.ok (), s')) :
    Handles s s' ∧ Writes (event.writable && interest.writable) s s' := by
  obtain ⟨_, s₁, read, rest⟩ | ⟨e, -, same⟩ := Run.bind_eq_some handled
  rotate_left
  · cases same
  obtain ⟨_, s₂, wrote, last⟩ | ⟨e, -, same⟩ := Run.bind_eq_some rest
  rotate_left
  · cases same
  have first : Handles s s₁ ∧ (s.client.interest.any (·.writable) = true → RoomDue s.client →
      RoomDue s₁.client) := by
    rcases when_ok read with ⟨-, read⟩ | ⟨-, rfl⟩
    · have handles := readClient_handles s
      have room := readClient_room s
      rw [show readClient s = (.ok (), s₁) from Option.some.inj read] at handles room
      exact ⟨handles, room⟩
    · exact ⟨.refl _, fun _ => id⟩
  have second : Handles s₁ s₂ ∧ Writes (event.writable && interest.writable) s₁ s₂ := by
    rcases when_ok wrote with ⟨writes, wrote⟩ | ⟨skipped, rfl⟩
    · obtain ⟨handles, ended⟩ := writePending_handles wrote
      refine ⟨handles, fun _ => ended, fun none => ?_⟩
      rw [writes] at none
      cases none
    · refine ⟨.refl _, fun writes => ?_, fun _ _ => id⟩
      rw [skipped] at writes
      cases writes
  have closing : s'.client = s₂.client ∧ s'.downstream = s₂.downstream ∧
      s'.clientRegistration = s₂.clientRegistration := by
    rcases when_ok last with ⟨-, last⟩ | ⟨-, rfl⟩
    · cases last
      exact ⟨rfl, rfl, rfl⟩
    · exact ⟨rfl, rfl, rfl⟩
  obtain ⟨client, downstream, registration⟩ := closing
  have both := first.1.trans second.1
  refine ⟨⟨?_, registration.trans both.registration, ?_⟩, ?_, ?_⟩
  · rw [client]
    exact both.settles
  · rw [downstream]
    exact both.empty
  · rw [client, downstream]
    exact second.2.ended
  · rw [client]
    intro none asks due
    refine second.2.room none ?_ (first.2 asks due)
    rw [first.1.settles.interest]
    exact asks

/-- The events of the encrypted socket leave the client's side alone. -/
theorem handleRemote_frame {rounds : Nat} {interest : Interest} {event : Readiness} {s s' : Relay κ}
    (handled : handleRemote tls rounds interest event s = some (.ok (), s')) :
    s'.client = s.client ∧ s'.downstream = s.downstream ∧
      s'.clientRegistration = s.clientRegistration := by
  let Frame := fun s₁ : Relay κ => s₁.client = s.client ∧ s₁.downstream = s.downstream ∧
    s₁.clientRegistration = s.clientRegistration
  have kept : Run.Preserves Frame (handleRemote tls rounds interest event) := by
    have zoomed : ∀ {τ : Type} {get : Relay κ → τ} {set : τ → Relay κ → Relay κ} {x : Run τ Unit},
        (∀ t s₁, (set t s₁).client = s₁.client ∧ (set t s₁).downstream = s₁.downstream ∧
          (set t s₁).clientRegistration = s₁.clientRegistration) →
        Run.Preserves Frame (Run.zoom get set x) := by
      intro τ get set x frame s₁ result s₂ h start
      unfold Run.zoom at h
      match hx : x (get s₁) with
      | none =>
          rw [hx] at h
          cases h
      | some (result', t) =>
          rw [hx] at h
          cases h
          obtain ⟨client, downstream, registration⟩ := frame t s₁
          exact ⟨client.trans start.1, downstream.trans start.2.1, registration.trans start.2.2⟩
    refine .bind (.when (zoomed ?_)) fun _ => .bind (.when (zoomed ?_)) fun _ => .when (.modify ?_)
    · exact fun _ _ => ⟨rfl, rfl, rfl⟩
    · exact fun _ _ => ⟨rfl, rfl, rfl⟩
    · exact fun _ h => h
  exact kept s _ s' handled ⟨rfl, rfl, rfl⟩

/-- The writes to the client that an event makes. -/
def Event.writes (interest : Interest) (event : Event) : Bool :=
  decide (event.token = .client) && (event.readiness.writable && interest.writable)

theorem handle_handles {rounds : Nat} {wanted : Wanted} {event : Event} {s s' : Relay κ}
    (handling : handle tls rounds wanted event s = some (.ok (), s')) :
    Handles s s' ∧ Writes (Event.writes wanted.client event) s s' := by
  obtain ⟨token, readiness⟩ := event
  cases token with
  | client => exact handleClient_handles handling
  | remote =>
      obtain ⟨client, downstream, registration⟩ := handleRemote_frame handling
      refine ⟨⟨?_, registration, ?_⟩, nofun, fun _ _ => ?_⟩
      · rw [client]
        exact .refl _
      · rw [downstream]
        exact id
      · rw [client]
        exact id

/-- An event is handled: what it announced is accounted for by it, or was used up. -/
theorem handle_announced {rounds : Nat} {wanted : Wanted}
    {handled events : List Event} {event : Event}
    {s s' : Relay κ} (h : Announced (.handling wanted handled (event :: events)) s)
    (handling : handle tls rounds wanted event s = some (.ok (), s')) :
    Announced (.handling wanted (handled ++ [event]) events) s' := by
  obtain ⟨⟨settles, registration, empty⟩, writing⟩ := handle_handles handling
  have reads : asksRead s' = asksRead s := by rw [asksRead, registration, asksRead]
  have writes : asksWrite s' = asksWrite s := by rw [asksWrite, registration, asksWrite]
  refine ⟨?_, ?_, ?_, ?_, ?_⟩
  · rw [Wants, reads, writes]
    exact h.wants
  · rw [reads, settles.interest]
    exact h.tracksRead
  · rw [writes, settles.interest]
    exact h.tracksWrite
  · rw [reads]
    intro asks unread quiet
    obtain ⟨before, kept⟩ := settles.quiet quiet
    have seen := h.read asks (kept (h.tracksRead asks) unread) before
    simpa [ReadSeen] using seen
  · rw [writes]
    intro asks
    cases wrote : Event.writes wanted.client event with
    | true =>
        rcases writing.ended wrote with done | room
        · refine .inr (.inr ⟨⟨event.readiness, ?_, ?_⟩, done⟩)
          · have client : event.token = .client := by simp_all [Event.writes]
            rw [← client]
            simp
          · simp_all [Event.writes]
        · exact .inl room
    | false =>
        rcases h.write asks with room | ⟨readiness, member,
          flag⟩ | ⟨⟨readiness, member, flag⟩, done⟩
        · exact .inl (writing.room wrote (h.tracksWrite asks) room)
        · rcases List.mem_cons.mp member with rfl | later
          · rw [Event.writes, flag, h.wants.2, asks] at wrote
            cases wrote
          · exact .inr (.inl ⟨readiness, later, flag⟩)
        · exact .inr (.inr ⟨⟨readiness, List.mem_append_left _ member, flag⟩, empty done⟩)

/-! ### Runs -/

theorem step_announced {free : κ → Nat} {waiting : κ → Bool} (writer : BufferedWriter tls free)
    (reader : PlaintextReader tls waiting) {rounds : Nat} {batch : Batch} {point point' : Point}
    {s s' : Relay κ} (h : Running point → Announced point s)
    (nothing : NothingLeft free waiting point s)
    (stepped : step tls rounds batch point s = some (point', s')) : Running point' →
    Announced point' s' := by
  intro running
  rcases step_cases stepped with ⟨handled, result, rfl, prepared, rfl⟩ | ⟨wanted,
    result, rfl, polled, rfl⟩ |
    ⟨wanted, handled, rfl, rfl, rfl⟩ | ⟨wanted, handled, event, events, result,
      rfl, handling, rfl⟩ |
    ⟨result, rfl, rfl, rfl⟩
  · match result with
    | .ok (some wanted) => exact prepare_announced writer reader (h trivial) nothing prepared
    | .ok none => exact running.elim
    | .error e => exact running.elim
  · match result with
    | .ok events => exact poll_announced (h trivial) polled
    | .error e => exact running.elim
  · obtain ⟨-, tracksRead, tracksWrite, read, write⟩ := h trivial
    refine ⟨trivial, tracksRead, tracksWrite, ?_, ?_⟩
    · intro asks unread quiet
      have seen := read asks unread quiet
      simpa [ReadSeen] using seen
    · intro asks
      rcases write asks with room | ⟨_, member, -⟩ | done
      · exact .inl room
      · cases member
      · exact .inr done
  · match result with
    | .ok () => exact handle_announced (h trivial) handling
    | .error e => exact running.elim
  · exact running.elim

theorem Reaches.announced {free : κ → Nat} {waiting : κ → Bool} (writer : BufferedWriter tls free)
    (reader : PlaintextReader tls waiting) {t : κ} {client : PolledStream}
    {point : Point} {s : Relay κ}
    (reached : Reaches tls (NothingLeft free waiting) { connection := t, client } point s) :
    Running point → Announced point s := by
  refine reached.invariant (I := fun point s => Running point → Announced point s) ?_ ?_
  · exact fun _ => ⟨trivial, nofun, nofun, nofun, nofun⟩
  · intro rounds batch point s point' s' h nothing stepped
    exact step_announced writer reader h nothing stepped

end Commeatus.Transport.Relay
