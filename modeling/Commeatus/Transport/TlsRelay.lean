import Commeatus.Transport.Rustls

/-!
The stream relay over TLS (`TlsTransportSession::relay_to_client` in
`transport/src/tls.rs`).

One loop moves bytes between a client socket and a TLS connection. Each
direction has one buffer of at most one chunk: `upstream` from the client into
the TLS writer, `downstream` from the TLS reader to the client. A round feeds
both buffers, decides about the end of either side, registers the interest
that follows from the buffers, polls, and handles the events of the poll.
-/

namespace Commeatus.Transport

open Commeatus.Lib

def ioChunk : Nat := 16 * 1024

structure Pending where
  bytes : Bytes := []
  offset : Nat := 0

namespace Pending

def isEmpty (p : Pending) : Bool := decide (p.bytes.length ≤ p.offset)

def remaining (p : Pending) : Bytes := p.bytes.drop p.offset

/-- The buffer is cleared once it is empty. -/
def settle (p : Pending) : Pending := if p.isEmpty then {} else p

theorem remaining_settle (p : Pending) : p.settle.remaining = p.remaining := by
  unfold settle
  split
  · rename_i empty
    have past : p.bytes.length ≤ p.offset := of_decide_eq_true empty
    exact (List.drop_eq_nil_of_le past).symm
  · rfl

theorem isEmpty_settle (p : Pending) : p.settle.isEmpty = p.isEmpty := by
  unfold settle
  split
  · rename_i empty
    rw [empty]
    rfl
  · rfl

theorem remaining_of_isEmpty {p : Pending} (empty : p.isEmpty = true) : p.remaining = [] :=
  List.drop_eq_nil_of_le (of_decide_eq_true empty)

theorem settle_of_isEmpty {p : Pending} (empty : p.isEmpty = true) : p.settle = {} := if_pos empty

theorem remaining_pos {p : Pending} (pending : p.isEmpty = false) : 0 < p.remaining.length := by
  have before : ¬ p.bytes.length ≤ p.offset := of_decide_eq_false pending
  rw [remaining, List.length_drop]
  exact Nat.sub_pos_of_lt (Nat.lt_of_not_le before)

/-- The buffer is empty once as many bytes as remained are taken, and not before. -/
theorem isEmpty_advance (p : Pending) (count : Nat) (pending : p.isEmpty = false) :
    Pending.isEmpty { p with offset := p.offset + count } =
      decide (p.remaining.length ≤ count) := by
  have before : ¬ p.bytes.length ≤ p.offset := of_decide_eq_false pending
  refine decide_eq_decide.mpr ?_
  rw [remaining, List.length_drop]
  show p.bytes.length ≤ p.offset + count ↔ _
  omega

end Pending

inductive Token where
  | client
  | remote
  deriving DecidableEq

structure Event where
  token : Token
  readiness : Readiness
  deriving DecidableEq

/-- The interest a round registers for the two sockets. -/
structure Wanted where
  client : Interest
  remote : Interest

/-- The relay's variables. `client_eof` and `close_notify_sent` are here with the side whose end
set them. -/
structure Relay (κ : Type) where
  connection : κ
  client : PolledStream
  clientRegistration : Registration := {}
  remoteRegistration : Registration := {}
  clientEnd : Option Token := none
  remoteEof : Bool := false
  closeNotify : Option Token := none
  clientWriteShutdown : Bool := false
  upstream : Pending := {}
  downstream : Pending := {}

namespace Relay

variable {κ : Type}

def clientEof (s : Relay κ) : Bool := s.clientEnd.isSome

def closeNotifySent (s : Relay κ) : Bool := s.closeNotify.isSome

/-- `client_eof = true`, because of the end of the given side. -/
def endClient (side : Token) (s : Relay κ) : Relay κ :=
  { s with clientEnd := s.clientEnd.or (some side) }

/-- `read_client`: one chunk, and only into an empty buffer. -/
def readClient : IoM (Relay κ) Unit := fun s =>
  if !s.upstream.isEmpty then (.ok (), s)
  else
    match s.client.read ioChunk with
    | (.ok [], client) => (.ok (), endClient .client { s with client, upstream := {} })
    | (.ok bytes, client) => (.ok (), { s with client, upstream := ⟨bytes, 0⟩ })
    | (.error e, client) =>
        if e.kind = .wouldBlock then (.ok (), { s with client, upstream := {} })
        else if e.kind = .interrupted then (.ok (), { s with client, upstream := {} })
        else (.error e, { s with client, upstream := {} })

/-- One round of `write_pending`: the client's socket takes what it has space for. -/
def writePendingRound (s : Relay κ) : Round (Except IoError Unit) × Relay κ :=
  if s.downstream.isEmpty then (.done (.ok ()), s)
  else
    match s.client.write s.downstream.remaining with
    | (.ok 0, client) =>
        (.done (.error ⟨.writeZero, "client closed while TLS plaintext remained buffered"⟩),
          { s with client })
    | (.ok count, client) =>
        (.again,
          { s with
            client, downstream := { s.downstream with offset := s.downstream.offset + count } })
    | (.error e, client) =>
        if e.kind = .wouldBlock then (.done (.ok ()), { s with client })
        else if e.kind = .interrupted then (.again, { s with client })
        else (.done (.error e), { s with client })

def writePending (rounds : Nat) : Run (Relay κ) Unit := do
  Run.loop rounds writePendingRound
  Run.modify fun s => { s with downstream := s.downstream.settle }

variable (tls : Rustls κ)

/-- One round of `feed_upstream`: the TLS writer takes what it has room for. -/
def feedUpstreamRound (s : Relay κ) : Round (Except IoError Unit) × Relay κ :=
  if s.upstream.isEmpty then (.done (.ok ()), s)
  else
    match tls.write s.upstream.remaining s.connection with
    | (.ok 0, connection) => (.done (.ok ()), { s with connection })
    | (.ok count, connection) =>
        (.again,
          { s with
            connection, upstream := { s.upstream with offset := s.upstream.offset + count } })
    | (.error e, connection) =>
        if e.kind = .wouldBlock then (.done (.ok ()), { s with connection })
        else if e.kind = .interrupted then (.again, { s with connection })
        else (.done (.error e), { s with connection })

def feedUpstream (rounds : Nat) : Run (Relay κ) Unit := do
  Run.loop rounds (feedUpstreamRound tls)
  Run.modify fun s => { s with upstream := s.upstream.settle }

/-- `fill_downstream`: one chunk, and only into an empty buffer. -/
def fillDownstream : IoM (Relay κ) Unit := fun s =>
  if !s.downstream.isEmpty then (.ok (), s)
  else
    match tls.read ioChunk s.connection with
    | (.ok bytes, connection) => (.ok (), { s with connection, downstream := ⟨bytes, 0⟩ })
    | (.error e, connection) =>
        if e.kind = .wouldBlock then (.ok (), { s with connection, downstream := {} })
        else if e.kind = .interrupted then (.ok (), { s with connection, downstream := {} })
        else (.error e, { s with connection, downstream := {} })

/-- `close_notify` is sent once; the side is the one whose end it answers. -/
def notifyClose (side : Token) (s : Relay κ) : Relay κ :=
  if s.closeNotifySent then s
  else { s with connection := tls.sendCloseNotify s.connection, closeNotify := some side }

/-- The client has ended and all it sent is with the TLS writer. -/
def closeAfterClient (s : Relay κ) : Relay κ :=
  if s.clientEof && s.upstream.isEmpty && !s.closeNotifySent then notifyClose tls .client s else s

/-- The remote side has ended and all it sent is with the client. -/
def closeAfterRemote : IoM (Relay κ) Unit := fun s =>
  if s.remoteEof && s.downstream.isEmpty && !s.clientWriteShutdown then
    match s.client.shutdownWrite with
    | (.error e, client) => (.error e, { s with client })
    | (.ok (), client) =>
        (.ok (), notifyClose tls .remote
          (endClient .remote { s with client, clientWriteShutdown := true }))
  else (.ok (), s)

def finished (s : Relay κ) : Bool :=
  s.clientEof && s.remoteEof && s.upstream.isEmpty && s.downstream.isEmpty &&
    !tls.wantsWrite s.connection

def wanted (s : Relay κ) : Wanted where
  client := ⟨!s.clientEof && s.upstream.isEmpty, !s.downstream.isEmpty⟩
  remote := ⟨!s.remoteEof && tls.wantsRead s.connection, tls.wantsWrite s.connection⟩

/-- `update_registration` of the client's socket. -/
def registerClient (interest : Interest) : IoM (Relay κ) Unit := fun s =>
  match updateRegistration interest.readable interest.writable s.clientRegistration with
  | (none, clientRegistration) => (.ok (), { s with clientRegistration })
  | (some call, clientRegistration) =>
      match s.client.registry call with
      | (.ok (), client) => (.ok (), { s with client, clientRegistration })
      | (.error e, client) => (.error e, { s with client })

/-- `update_registration` of the encrypted socket. -/
def registerRemote (interest : Interest) : IoM (Relay κ) Unit := fun s =>
  match updateRegistration interest.readable interest.writable s.remoteRegistration with
  | (none, remoteRegistration) => (.ok (), { s with remoteRegistration })
  | (some call, remoteRegistration) =>
      match tls.registry call s.connection with
      | (.ok (), connection) => (.ok (), { s with connection, remoteRegistration })
      | (.error e, connection) => (.error e, { s with connection })

def noInterest : IoError := ⟨.unexpectedEof, "TLS relay has no remaining I/O interest"⟩

/-- The registrations of a round; it is an error to be left with none. -/
def register (wanted : Wanted) : IoM (Relay κ) Unit := do
  registerClient wanted.client
  registerRemote tls wanted.remote
  fun s =>
    if !s.clientRegistration.registered && !s.remoteRegistration.registered then
      (.error noInterest, s)
    else (.ok (), s)

/-- A round up to its poll: the interest it polls with, or nothing where the relay returns. -/
def prepare (rounds : Nat) : Run (Relay κ) (Option Wanted) := do
  feedUpstream tls rounds
  Run.ofIo (fillDownstream tls)
  Run.modify (closeAfterClient tls)
  Run.ofIo (closeAfterRemote tls)
  fun s =>
    if finished tls s then some (.ok none, s)
    else (do
      Run.ofIo (register tls (wanted tls s))
      pure (some (wanted tls s))) s

/-- What a poll returns beside the client's event: an event of the encrypted socket, and which of
the two comes first. -/
structure Batch where
  remote : Option Readiness := none
  clientFirst : Bool := true

def Batch.events (batch : Batch) (client : Option Readiness) : List Event :=
  let clientEvents := client.toList.map (Event.mk .client)
  let remoteEvents := batch.remote.toList.map (Event.mk .remote)
  if batch.clientFirst then clientEvents ++ remoteEvents else remoteEvents ++ clientEvents

def poll (batch : Batch) : IoM (Relay κ) (List Event) := fun s =>
  match s.client.poll with
  | (.ok event, client) => (.ok (batch.events event), { s with client })
  | (.error e, client) => (.error e, { s with client })

def readRemote (rounds : Nat) : Run (Relay κ) Unit :=
  Run.zoom (fun s => (s.connection, s.remoteEof))
    (fun out s => { s with connection := out.1, remoteEof := out.2 }) (readRemoteTls tls rounds)

def writeRemote (rounds : Nat) : Run (Relay κ) Unit :=
  Run.zoom connection (fun connection s => { s with connection }) (writeRemoteTls tls rounds)

def handleClient (rounds : Nat) (interest : Interest) (event : Readiness) : Run (Relay κ) Unit := do
  Run.when (event.readable && interest.readable) (Run.ofIo readClient)
  Run.when (event.writable && interest.writable) (writePending rounds)
  Run.when event.closing (Run.modify (endClient .client))

def handleRemote (rounds : Nat) (interest : Interest) (event : Readiness) : Run (Relay κ) Unit := do
  Run.when (event.readable && interest.readable) (readRemote tls rounds)
  Run.when (event.writable && interest.writable) (writeRemote tls rounds)
  Run.when event.closing (Run.modify fun s => { s with remoteEof := true })

def handle (rounds : Nat) (wanted : Wanted) (event : Event) : Run (Relay κ) Unit :=
  match event.token with
  | .client => handleClient rounds wanted.client event.readiness
  | .remote => handleRemote tls rounds wanted.remote event.readiness

/-- Where the loop stands: at its top, behind the events it has handled; before its poll; among
the events of a poll; or returned. -/
inductive Point where
  | top (handled : List Event)
  | waiting (wanted : Wanted)
  | handling (wanted : Wanted) (handled events : List Event)
  | returned (result : Except IoError Unit)

/-- The loop, up to its next point. -/
def proceed (rounds : Nat) (batch : Batch) : Point → Run (Relay κ) Point
  | .top _ => do
      match ← prepare tls rounds with
      | none => pure (.returned (.ok ()))
      | some wanted => pure (.waiting wanted)
  | .waiting wanted => do
      let events ← Run.ofIo (poll batch)
      pure (.handling wanted [] events)
  | .handling _ handled [] => pure (.top handled)
  | .handling wanted handled (event :: events) => do
      handle tls rounds wanted event
      pure (.handling wanted (handled ++ [event]) events)
  | .returned result => pure (.returned result)

/-- One step of `relay_to_client`; an error makes it return. -/
def step (rounds : Nat) (batch : Batch) (point : Point) (s : Relay κ) : Option (Point × Relay κ) :=
  match proceed tls rounds batch point s with
  | none => none
  | some (.ok point, s) => some (point, s)
  | some (.error e, s) => some (.returned (.error e), s)

/-- The points and states that `relay_to_client` comes to, by steps that each meet a condition. -/
inductive Reaches (Meets : Point → Relay κ → Prop) (start : Relay κ) : Point → Relay κ → Prop
  | start : Reaches Meets start (.top []) start
  | step (rounds : Nat) (batch : Batch) {point point' : Point} {s s' : Relay κ} :
      Reaches Meets start point s → Meets point s → step tls rounds batch point s =
        some (point', s') →
        Reaches Meets start point' s'

variable {tls}

/-- The parts of a round that comes to its end without an error. -/
theorem prepare_ok {rounds : Nat} {s s' : Relay κ} {outcome : Option Wanted}
    (prepared : prepare tls rounds s = some (.ok outcome, s')) :
    ∃ s₁ s₂ s₃, feedUpstream tls rounds s = some (.ok (), s₁) ∧
      fillDownstream tls s₁ = (.ok (), s₂) ∧
      closeAfterRemote tls (closeAfterClient tls s₂) = (.ok (), s₃) ∧
      ((finished tls s₃ = true ∧ outcome = none ∧ s' = s₃) ∨
        (outcome = some (wanted tls s₃) ∧ register tls (wanted tls s₃) s₃ = (.ok (), s'))) := by
  rcases Run.bind_eq_some prepared with ⟨_, s₁, fed, prepared⟩ | ⟨e, -, same⟩
  rotate_left
  · cases same
  rcases Run.bind_eq_some prepared with ⟨_, s₂, filled, prepared⟩ | ⟨e, -, same⟩
  rotate_left
  · cases same
  rcases Run.bind_eq_some prepared with ⟨_, s₂', modified, prepared⟩ | ⟨e, -, same⟩
  rotate_left
  · cases same
  cases modified
  rcases Run.bind_eq_some prepared with ⟨_, s₃, closed, prepared⟩ | ⟨e, -, same⟩
  rotate_left
  · cases same
  refine ⟨s₁, s₂, s₃, fed, Option.some.inj filled, Option.some.inj closed, ?_⟩
  split at prepared
  · rename_i done
    cases prepared
    exact .inl ⟨done, rfl, rfl⟩
  · rcases Run.bind_eq_some prepared with ⟨_, s₄, registered, last⟩ | ⟨e, -, same⟩
    · cases last
      exact .inr ⟨rfl, Option.some.inj registered⟩
    · cases same

/-- The relay returns from the top of its loop only where it is finished. -/
theorem prepare_none {rounds : Nat} {s s' : Relay κ}
    (returns : prepare tls rounds s = some (.ok none, s')) :
    finished tls s' = true := by
  obtain ⟨_, _, s₃, -, -, -, ⟨done, -, rfl⟩ | ⟨outcome, -⟩⟩ := prepare_ok returns
  · exact done
  · cases outcome

theorem feedUpstreamRound_empty {s : Relay κ} (empty : s.upstream.isEmpty = true) :
    feedUpstreamRound tls s = (.done (.ok ()), s) :=
  if_pos empty

section Feed

variable {free : κ → Nat} (writer : BufferedWriter tls free)

include writer

theorem feedUpstreamRound_takes {s : Relay κ} (pending : s.upstream.isEmpty = false)
    (room : 0 < free s.connection) :
    feedUpstreamRound tls s = (.again,
      { s with
        connection := (tls.write s.upstream.remaining s.connection).2
        upstream := { s.upstream with
          offset :=
            s.upstream.offset + min s.upstream.remaining.length (free s.connection) } }) := by
  have answer := writer.accepts s.upstream.remaining s.connection
  have positive := lt_min (Pending.remaining_pos pending) room
  obtain ⟨count, taken⟩ := Nat.exists_eq_succ_of_ne_zero positive.ne'
  rw [taken] at answer
  unfold feedUpstreamRound
  rw [if_neg (by rw [pending]; decide), taken, show tls.write s.upstream.remaining s.connection =
    (.ok (count + 1), (tls.write s.upstream.remaining s.connection).2) from Prod.ext answer rfl]
  rfl

theorem feedUpstreamRound_full {s : Relay κ} (pending : s.upstream.isEmpty = false)
    (full : free s.connection = 0) :
    feedUpstreamRound tls s = (.done (.ok ()),
      { s with connection := (tls.write s.upstream.remaining s.connection).2 }) := by
  have answer := writer.accepts s.upstream.remaining s.connection
  rw [full, Nat.min_zero] at answer
  unfold feedUpstreamRound
  rw [if_neg (by rw [pending]; decide), show tls.write s.upstream.remaining s.connection =
    (.ok 0, (tls.write s.upstream.remaining s.connection).2) from Prod.ext answer rfl]
  rfl

/-- What fits the writer's buffer is taken at once. -/
theorem iterate_feedUpstream_fits {s : Relay κ} (pending : s.upstream.isEmpty = false)
    (fits : s.upstream.remaining.length ≤ free s.connection) :
    iterate (feedUpstreamRound tls) 2 s = (some (.ok ()),
      { s with
        connection := (tls.write s.upstream.remaining s.connection).2
        upstream :=
        { s.upstream with offset := s.upstream.offset + s.upstream.remaining.length } }) := by
  have taken :=
    feedUpstreamRound_takes writer pending (Nat.lt_of_lt_of_le (Pending.remaining_pos pending) fits)
  rw [Nat.min_eq_left fits] at taken
  have empty := Pending.isEmpty_advance s.upstream s.upstream.remaining.length pending
  rw [decide_eq_true le_rfl] at empty
  rw [iterate_again taken]
  exact iterate_done (feedUpstreamRound_empty empty) 0

theorem feedUpstream_fits {s : Relay κ} (pending : s.upstream.isEmpty = false)
    (fits : s.upstream.remaining.length ≤ free s.connection) :
    feedUpstream tls 2 s = some (.ok (),
      { s with
        connection := (tls.write s.upstream.remaining s.connection).2, upstream := {} }) := by
  have looped := Run.loop_of_iterate (iterate_feedUpstream_fits writer pending fits) le_rfl
  have empty := Pending.isEmpty_advance s.upstream s.upstream.remaining.length pending
  rw [decide_eq_true le_rfl] at empty
  refine (Run.bind_of_ok looped).trans ?_
  rw [Run.modify, Pending.settle_of_isEmpty empty]

/-- Of what does not fit, a rest is left. -/
theorem iterate_feedUpstream_overflows {s : Relay κ} (pending : s.upstream.isEmpty = false)
    (overflow : free s.connection < s.upstream.remaining.length) :
    ∃ s', iterate (feedUpstreamRound tls) 2 s = (some (.ok ()), s') ∧
      s'.upstream.isEmpty = false := by
  cases room : free s.connection with
  | zero =>
      exact ⟨_, iterate_done (feedUpstreamRound_full writer pending room) 1, pending⟩
  | succ count =>
      have taken := feedUpstreamRound_takes writer pending (by rw [room]; exact Nat.succ_pos count)
      rw [Nat.min_eq_right overflow.le] at taken
      have rest := Pending.isEmpty_advance s.upstream (free s.connection) pending
      rw [decide_eq_false (Nat.not_le_of_lt overflow)] at rest
      have spent := writer.spends s.upstream.remaining s.connection
      rw [Nat.min_eq_right overflow.le, Nat.sub_self] at spent
      refine ⟨_, (iterate_again taken 1).trans
        (iterate_done (feedUpstreamRound_full writer ?_ ?_) 0), ?_⟩
      · exact rest
      · exact Nat.le_zero.mp spent
      · exact rest

/-- Feeding leaves `upstream` empty exactly where it fits the writer's buffer. -/
theorem feedUpstream_isEmpty {rounds : Nat} {s s' : Relay κ} {result : Except IoError Unit}
    (fed : feedUpstream tls rounds s = some (result, s')) :
    s'.upstream.isEmpty = decide (s.upstream.remaining.length ≤ free s.connection) := by
  have looped : ∃ n s₁, iterate (feedUpstreamRound tls) n s = (some (.ok ()), s₁) ∧
      s₁.upstream.isEmpty = decide (s.upstream.remaining.length ≤ free s.connection) := by
    cases pending : s.upstream.isEmpty with
    | true =>
        refine ⟨1, s, ?_, ?_⟩
        · exact iterate_done (feedUpstreamRound_empty pending) 0
        · rw [pending, Pending.remaining_of_isEmpty pending]
          rfl
    | false =>
        by_cases fits : s.upstream.remaining.length ≤ free s.connection
        · refine ⟨2, _, iterate_feedUpstream_fits writer pending fits, ?_⟩
          rw [Pending.isEmpty_advance _ _ pending, decide_eq_true le_rfl, decide_eq_true fits]
        · obtain ⟨s₁, done, rest⟩ :=
            iterate_feedUpstream_overflows writer pending (Nat.lt_of_not_le fits)
          exact ⟨2, s₁, done, rest.trans (decide_eq_false fits).symm⟩
  obtain ⟨n, s₁, done, empty⟩ := looped
  rcases Run.bind_eq_some fed with ⟨_, s₂, first, last⟩ | ⟨e, first, -⟩
  · obtain ⟨-, rfl⟩ := Run.loop_unique done first
    cases last
    exact (Pending.isEmpty_settle _).trans empty
  · obtain ⟨other, -⟩ := Run.loop_unique done first
    cases other

end Feed

/-- The steps from each point, and where they lead. -/
theorem step_cases {rounds : Nat} {batch : Batch} {point point' : Point} {s s' : Relay κ}
    (stepped : step tls rounds batch point s = some (point', s')) :
    (∃ handled result, point = .top handled ∧ prepare tls rounds s = some (result, s') ∧
      point' = match result with
        | .ok none => .returned (.ok ())
        | .ok (some wanted) => .waiting wanted
        | .error e => .returned (.error e)) ∨
    (∃ wanted result, point = .waiting wanted ∧ poll batch s = (result, s') ∧
      point' = match result with
        | .ok events => .handling wanted [] events
        | .error e => .returned (.error e)) ∨
    (∃ wanted handled, point = .handling wanted handled [] ∧ point' = .top handled ∧ s' = s) ∨
    (∃ wanted handled event events result, point = .handling wanted handled (event :: events) ∧
      handle tls rounds wanted event s = some (result, s') ∧
      point' = match result with
        | .ok () => .handling wanted (handled ++ [event]) events
        | .error e => .returned (.error e)) ∨
    (∃ result, point = .returned result ∧ point' = point ∧ s' = s) := by
  unfold step at stepped
  match proceeded : proceed tls rounds batch point s with
  | none =>
      rw [proceeded] at stepped
      cases stepped
  | some (.ok next, s₁) =>
      rw [proceeded] at stepped
      cases stepped
      match point with
      | .top handled =>
          rcases Run.bind_eq_some proceeded with ⟨outcome, s₁, prepared, last⟩ | ⟨e, -, same⟩
          · cases outcome with
            | none =>
                cases last
                exact .inl ⟨handled, _, rfl, prepared, rfl⟩
            | some wanted =>
                cases last
                exact .inl ⟨handled, _, rfl, prepared, rfl⟩
          · cases same
      | .waiting wanted =>
          rcases Run.bind_eq_some proceeded with ⟨events, s₁, polled, last⟩ | ⟨e, -, same⟩
          · cases last
            exact .inr (.inl ⟨wanted, _, rfl, Option.some.inj polled, rfl⟩)
          · cases same
      | .handling wanted handled [] =>
          cases proceeded
          exact .inr (.inr (.inl ⟨wanted, handled, rfl, rfl, rfl⟩))
      | .handling wanted handled (event :: events) =>
          rcases Run.bind_eq_some proceeded with ⟨_, s₁, handling, last⟩ | ⟨e, -, same⟩
          · cases last
            exact .inr (.inr (.inr (.inl ⟨wanted, handled, event, events, _, rfl, handling, rfl⟩)))
          · cases same
      | .returned result =>
          cases proceeded
          exact .inr (.inr (.inr (.inr ⟨result, rfl, rfl, rfl⟩)))
  | some (.error e, s₁) =>
      rw [proceeded] at stepped
      cases stepped
      match point with
      | .top handled =>
          rcases Run.bind_eq_error proceeded with prepared | ⟨outcome, s₁, prepared, last⟩
          · exact .inl ⟨handled, _, rfl, prepared, rfl⟩
          · cases outcome with
            | none => cases last
            | some wanted => cases last
      | .waiting wanted =>
          rcases Run.bind_eq_error proceeded with polled | ⟨events, s₁, polled, last⟩
          · exact .inr (.inl ⟨wanted, _, rfl, Option.some.inj polled, rfl⟩)
          · cases last
      | .handling wanted handled [] => cases proceeded
      | .handling wanted handled (event :: events) =>
          rcases Run.bind_eq_error proceeded with handling | ⟨_, s₁, handling, last⟩
          · exact .inr (.inr (.inr (.inl ⟨wanted, handled, event, events, _, rfl, handling, rfl⟩)))
          · cases last
      | .returned result => cases proceeded

theorem step_of_prepare {rounds : Nat} (batch : Batch) (handled : List Event) {s s' : Relay κ}
    {wanted : Wanted} (prepared : prepare tls rounds s = some (.ok (some wanted), s')) :
    step tls rounds batch (.top handled) s = some (.waiting wanted, s') := by
  have proceeded : proceed tls rounds batch (.top handled) s = some (.ok (.waiting wanted), s') :=
    Run.bind_of_ok prepared
  unfold step
  rw [proceeded]

/-- What the steps preserve holds throughout. -/
theorem Reaches.invariant {Meets I : Point → Relay κ → Prop} {start : Relay κ}
    (initial : I (.top []) start)
    (preserved : ∀ rounds batch point s point' s', I point s → Meets point s →
      Relay.step tls rounds batch point s = some (point', s') → I point' s')
    {point : Point} {s : Relay κ} (reached : Reaches tls Meets start point s) : I point s := by
  induction reached with
  | start => exact initial
  | step rounds batch _ meets stepped ih => exact preserved rounds batch _ _ _ _ ih meets stepped

end Relay

end Commeatus.Transport
