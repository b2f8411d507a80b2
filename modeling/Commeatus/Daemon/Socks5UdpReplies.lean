import Commeatus.Lib.Outbox
import Commeatus.Daemon.Socks5UdpLock

/-!
The replies of a SOCKS5 UDP association.

A datagram that a route receives is offered to the relay socket at once; where
the socket cannot take it now, it waits in the queue of the association. The
record of a run holds what the routes received, every offer with its answer, the
batches of events and the registrations of the relay socket. Read by it, the
queue is that of an outbox.
-/

namespace Commeatus.Daemon.Socks5Udp

open Commeatus.Lib Commeatus.Core

variable {ε ω : Type}

/-! ### The record -/

/-- A datagram of a route; an offer to the relay socket, with its answer; a batch of events, and
whether it says that the socket is writable; a registration of the socket. -/
inductive Post where
  | received (datagram : ReceivedDatagram)
  | offered (packet : Bytes) (client : SocketAddr) (answer : Except IoError Nat)
  | woken (writable : Bool)
  | registered (interest : Interest)

def arrivals : Except IoError (Option ReceivedDatagram) → List Post
  | .ok (some datagram) => [.received datagram]
  | _ => []

/-- What a batch says of the relay socket. -/
def clientWritable (events : List PollEvent) : Bool :=
  events.any fun e => e.token == udpClientToken && e.readiness.writable

def batch : Except IoError (List PollEvent) → List Post
  | .ok events => [.woken (clientWritable events)]
  | .error _ => []

def registration (interest : Interest) : Except IoError Unit → List Post
  | .ok () => [.registered interest]
  | .error _ => []

/-- The same outside, with the record beside it. -/
abbrev Env.posted (env : Env ω) : Env (ω × List Post) :=
  env.recorded
    { polled := fun answer log => log ++ batch answer
      replied := fun packet client answer log => log ++ [.offered packet client answer]
      reregistered := fun interest answer log => log ++ registration interest answer }

/-- The same outbounds, with what their routes receive in the record. -/
abbrev postedOutbounds (outbounds : Outbounds ε ω) : Outbounds ε (ω × List Post) :=
  outbounds.recorded { received := fun answer log => log ++ arrivals answer }

abbrev Posted (ε ω : Type) : Type := Association ε (ω × List Post)

variable {env : Env ω} {runtime : Runtime} {outbounds : Outbounds ε ω}

theorem Env.posted_poll {timeout : Nat} {s s' : ω × List Post}
    {result : Except IoError (List PollEvent)}
    (answer : env.posted.poll timeout s = (result, s')) : s'.2 = s.2 ++ batch result :=
  (IoM.of_noted answer).2

theorem Env.posted_sendTo {packet : Bytes} {client : SocketAddr} {s s' : ω × List Post}
    {result : Except IoError Nat} (answer : env.posted.sendTo packet client s = (result, s')) :
    s'.2 = s.2 ++ [.offered packet client result] :=
  (IoM.of_noted answer).2

theorem Env.posted_reregister {interest : Interest} {s s' : ω × List Post}
    {result : Except IoError Unit}
    (answer : env.posted.reregister interest s = (result, s')) :
    s'.2 = s.2 ++ registration interest result :=
  (IoM.of_noted answer).2

/-! ### The account -/

/-- What an answer of the relay socket means for a reply. -/
def verdict (packet : Bytes) : Except IoError Nat → Verdict
  | .ok sent => if sent = packet.length then .taken else .failed
  | .error e => if e.kind = .wouldBlock ∨ e.kind = .interrupted then .later else .failed

theorem verdict_later_iff {packet : Bytes} {answer : Except IoError Nat} :
    verdict packet answer = .later ↔ ∃ e, answer = .error e ∧
      (e.kind = .wouldBlock ∨ e.kind = .interrupted) := by
  unfold verdict
  cases answer with
  | ok sent =>
      dsimp only
      split
      · simp
      · simp
  | error e =>
      dsimp only
      split
      · rename_i waits
        exact ⟨fun _ => ⟨e, rfl, waits⟩, fun _ => rfl⟩
      · rename_i hard
        simp [hard]

/-- The record read as that of an outbox: the offer behind a datagram of a route is that of the
reply with it, and every other one is that of the reply that has waited longest. -/
inductive Account : List Post → Outbox (Bytes × SocketAddr) → Prop where
  | start : Account [] {}
  | pass {log : List Post} {box : Outbox (Bytes × SocketAddr)} {post : Post}
      (before : Account log box)
      (other : ∀ packet client answer, post ≠ .offered packet client answer) :
        Account (log ++ [post]) box
  | fresh {log : List Post} {box : Outbox (Bytes × SocketAddr)}
      {datagram : ReceivedDatagram} {packet : Bytes}
      (before : Account (log ++ [.received datagram]) box)
      (encoded : Socks5.encodeUdpResponse datagram.source datagram.payload = .ok packet)
      (client : SocketAddr) (answer : Except IoError Nat) :
      Account (log ++ [.received datagram] ++ [.offered packet client answer])
        (box.offer maxPendingClientReplies (packet, client) (verdict packet answer))
  | retry {log : List Post} {box : Outbox (Bytes × SocketAddr)} {packet : Bytes}
      {client : SocketAddr}
      {rest : List (Bytes × SocketAddr)} (before : Account log box)
        (front : box.queue = (packet, client) :: rest)
      (answer : Except IoError Nat) :
      Account (log ++ [.offered packet client answer]) (box.retry (verdict packet answer))

/-- The replies that the relay socket took whole. -/
def whole (log : List Post) : List (Bytes × SocketAddr) :=
  log.filterMap fun post =>
    match post with
    | .offered packet client answer =>
        if verdict packet answer = .taken then some (packet, client) else none
    | _ => none

theorem Account.sound {log : List Post} {box : Outbox (Bytes × SocketAddr)}
    (account : Account log box) :
    box.Sound maxPendingClientReplies := by
  induction account with
  | start => exact Outbox.sound_empty
  | pass _ _ ih => exact ih
  | fresh _ _ client answer ih => exact ih.offer _ _
  | retry _ _ answer ih => exact ih.retry _

/-- What is delivered is what the socket took. -/
theorem Account.delivered {log : List Post} {box : Outbox (Bytes × SocketAddr)}
    (account : Account log box) :
    box.delivered = whole log := by
  have single : ∀ packet client answer, whole [.offered packet client answer] =
      if verdict packet answer = .taken then [(packet, client)] else [] := by
    intro packet client answer
    unfold whole
    split <;> simp_all
  have append : ∀ log post, whole (log ++ [post]) = whole log ++ whole [post] :=
    fun log post => List.filterMap_append
  induction account with
  | start => rfl
  | @pass log box post _ other ih =>
      rw [append, ih]
      cases post with
      | offered packet client answer => exact absurd rfl (other packet client answer)
      | received datagram => exact (List.append_nil _).symm
      | woken writable => exact (List.append_nil _).symm
      | registered interest => exact (List.append_nil _).symm
  | fresh _ _ client answer ih => rw [append, single, ← ih, Outbox.delivered_offer]
  | retry _ front answer ih => rw [append, single, ← ih, Outbox.delivered_retry front]

/-- What is dropped was offered, and the socket did not take it. -/
theorem Account.dropped {log : List Post} {box : Outbox (Bytes × SocketAddr)}
    (account : Account log box) :
    ∀ reply ∈ box.dropped, ∃ answer, .offered reply.1 reply.2 answer ∈ log ∧
      verdict reply.1 answer ≠ .taken := by
  induction account with
  | start => nofun
  | pass _ _ ih =>
      intro reply member
      obtain ⟨answer, offered, refused⟩ := ih reply member
      exact ⟨answer, List.mem_append_left _ offered, refused⟩
  | fresh _ _ client answer ih =>
      intro reply member
      rcases Outbox.dropped_offer member with before | ⟨rfl, refused⟩
      · obtain ⟨answer', offered, refused⟩ := ih reply before
        exact ⟨answer', List.mem_append_left _ offered, refused⟩
      · exact ⟨answer, by simp, refused⟩
  | retry _ front answer ih =>
      intro reply member
      rcases Outbox.dropped_retry front member with before | ⟨rfl, refused⟩
      · obtain ⟨answer', offered, refused⟩ := ih reply before
        exact ⟨answer', List.mem_append_left _ offered, refused⟩
      · exact ⟨answer, by simp, refused⟩

/-! ### Parts of a step -/

/-- The record, the queue, the interest and the client stay. -/
structure Quiet (s s' : Posted ε ω) : Prop where
  log : s'.world.2 = s.world.2
  pending : s'.pendingReplies = s.pendingReplies
  writable : s'.relayWritable = s.relayWritable

theorem receiveClient_same {controlIp : IpAddr} {burst : Nat}
    {outbound : List Nat} {writable : Bool}
    {s s' : Posted ε ω} {result : Except IoError Point}
    (received : receiveClient env.posted runtime (postedOutbounds outbounds) controlIp burst
      outbound writable s =
      some (result, s')) :
    Quiet s s' ∧ ∀ point, result = .ok point → point = .client burst outbound writable ∨
      point = .outbound outbound maxUdpEventBurst writable := by
  have reads : ∀ {answer : Except IoError (Bytes × SocketAddr)} {world : ω × List Post},
      env.posted.recvFrom maxUdpPacket s.world = (answer, world) → world.2 = s.world.2 := by
    intro answer world read
    exact congrArg (·.2.2) read.symm
  have handles : ∀ {packet : Bytes} {t t' : Posted ε ω} {accepted : Except IoError Bool},
      handleUdpClientPacket env.posted runtime (postedOutbounds outbounds) packet t =
          some (accepted, t') → Quiet t t' := by
    intro packet t t' accepted handled
    cases handleUdpClientPacket_cases env.posted runtime (postedOutbounds outbounds) handled with
    | malformed parsed => exact ⟨rfl, rfl, rfl⟩
    | unplanned parsed selected => exact ⟨rfl, rfl, rfl⟩
    | routed parsed selected sending =>
        rcases DatagramRouteSet.sendWith_recorded (fun _ _ => rfl) sending with ⟨log, -⟩ | ⟨_, log⟩
        · exact ⟨log, rfl, rfl⟩
        · exact ⟨log, rfl, rfl⟩
  cases receiveClient_cases env.posted runtime (postedOutbounds outbounds) received with
  | foreign arrived other =>
      exact ⟨⟨reads arrived, rfl, rfl⟩, fun point is => .inl (Except.ok.inj is).symm⟩
  | refused arrived own handled =>
      have same := handles handled
      exact ⟨⟨same.log.trans (reads arrived), same.pending, same.writable⟩,
        fun point is => .inl (Except.ok.inj is).symm⟩
  | accepted arrived own handled accepts =>
      have same := handles handled
      cases accepts
      exact ⟨⟨same.log.trans (reads arrived), same.pending, same.writable⟩,
        fun point is => .inl (Except.ok.inj is).symm⟩
  | drained answer blocks =>
      exact ⟨⟨reads answer, rfl, rfl⟩, fun point is => .inr (Except.ok.inj is).symm⟩
  | interrupted answer again =>
      exact ⟨⟨reads answer, rfl, rfl⟩, fun point is => .inl (Except.ok.inj is).symm⟩
  | failed answer hard =>
      refine ⟨⟨reads answer, rfl, rfl⟩, fun point no => ?_⟩
      cases no

/-- How a poll ends: it is interrupted, the batch is for the packets of the client, or the
association is over. -/
inductive Polled (s s' : Posted ε ω) : Except IoError Point → Prop where
  | interrupted (log : s'.world.2 = s.world.2) : Polled s s' (.ok .top)
  | woken (burst : Nat) (outbound : List Nat) (writable : Bool)
      (log : s'.world.2 = s.world.2 ++ [.woken writable]) :
      Polled s s' (.ok (.client burst outbound writable))
  | ended {result : Except IoError Point} (ends : ∀ point, result = .ok point →
      ∃ final, point = .returned final)
      (log : s'.world.2 = s.world.2 ∨ ∃ writable, s'.world.2 = s.world.2 ++ [.woken writable]) :
        Polled s s' result

theorem pollEvents_polled {s s' : Posted ε ω} {result : Except IoError Point}
    (polled : pollEvents env.posted s = some (result, s')) : Polled s s' result := by
  unfold pollEvents at polled
  dsimp only at polled
  split at polled
  · cases polled
    exact .ended (fun point is => ⟨_, (Except.ok.inj is).symm⟩) (.inl rfl)
  split at polled
  · rename_i e world answer
    have log : world.2 = s.world.2 := (Env.posted_poll answer).trans (List.append_nil _)
    split at polled
    · cases polled
      exact .interrupted log
    · cases polled
      refine .ended (fun point no => ?_) (.inl log)
      cases no
  · rename_i events world answer
    have log : world.2 = s.world.2 ++ [.woken (clientWritable events)] := Env.posted_poll answer
    split at polled
    · cases polled
      exact .ended (fun point is => ⟨_, (Except.ok.inj is).symm⟩) (.inr ⟨_, log⟩)
    have closes : (controlClosed env.posted events world).2.2 = s.world.2 ++
        [.woken (clientWritable events)] :=
      controlClosed_frame (W := fun world : ω × List Post => world.2 = s.world.2 ++
        [.woken (clientWritable events)])
        (fun _ _ same => same) events log
    split at polled
    · rename_i closed
      rw [closed] at closes
      cases polled
      refine .ended (fun point no => ?_) (.inr ⟨_, closes⟩)
      cases no
    · rename_i closed
      rw [closed] at closes
      cases polled
      exact .ended (fun point is => ⟨_, (Except.ok.inj is).symm⟩) (.inr ⟨_, closes⟩)
    · rename_i closed
      rw [closed] at closes
      cases polled
      exact .woken _ _ _ closes

/-- An offer of a fresh reply: it is in the record with its answer, and the queue is that of the
outbox. -/
structure Offers (packet : Bytes) (client : SocketAddr) (s s' : Posted ε ω) : Prop where
  offered : ∃ answer, s'.world.2 = s.world.2 ++ [.offered packet client answer] ∧
    ∀ box : Outbox (Bytes × SocketAddr), box.queue = s.pendingReplies →
      (box.offer maxPendingClientReplies (packet, client) (verdict packet answer)).queue =
        s'.pendingReplies
  writable : s'.relayWritable = s.relayWritable

theorem sendOrQueueClientReply_offers {packet : Bytes} {client : SocketAddr} {s s' : Posted ε ω}
    {result : Except IoError Bool}
    (sent : sendOrQueueClientReply env.posted packet client s = some (result, s')) :
    Offers packet client s s' := by
  unfold sendOrQueueClientReply at sent
  split at sent
  · rename_i count world answer
    cases sent
    refine ⟨⟨_, Env.posted_sendTo answer, fun box queue => ?_⟩, rfl⟩
    rw [Outbox.queue_offer, if_neg, queue]
    rw [verdict_later_iff]
    simp
  · rename_i e world answer
    split at sent
    · rename_i waits
      have later : verdict packet (.error e) = .later := verdict_later_iff.mpr ⟨e, rfl, waits⟩
      split at sent
      · rename_i full
        cases sent
        refine ⟨⟨_, Env.posted_sendTo answer, fun box queue => ?_⟩, rfl⟩
        rw [Outbox.queue_offer, queue, if_neg fun room => Nat.not_lt_of_le full room.2]
      · rename_i room
        cases sent
        refine ⟨⟨_, Env.posted_sendTo answer, fun box queue => ?_⟩, rfl⟩
        rw [Outbox.queue_offer, queue, if_pos ⟨later, Nat.lt_of_not_le room⟩]
    · rename_i hard
      cases sent
      refine ⟨⟨_, Env.posted_sendTo answer, fun box queue => ?_⟩, rfl⟩
      rw [Outbox.queue_offer, if_neg, queue]
      simp [verdict_later_iff, hard]

/-- A datagram of a route is offered to the client if it is known and the datagram can be encoded
for it. -/
inductive Replying (received : ReceivedDatagram) (s : Posted ε ω) : Except IoError Unit →
    Posted ε ω → Prop where
  | unknown (nobody : s.clientAddress = none) : Replying received s (.ok ()) s
  | unencodable {e : IoError} {client : SocketAddr} (known : s.clientAddress = some client)
      (refused : Socks5.encodeUdpResponse received.source received.payload = .error e) :
        Replying received s (.error e) s
  | offered {packet : Bytes} {client : SocketAddr} {s' : Posted ε ω}
      (known : s.clientAddress = some client)
      (encoded : Socks5.encodeUdpResponse received.source received.payload = .ok packet)
      (offers : Offers packet client s s') : Replying received s (.ok ()) s'

theorem reply_replying {received : ReceivedDatagram} {s s' : Posted ε ω}
    {result : Except IoError Unit}
    (replied : reply env.posted received s = some (result, s')) :
    Replying received s result s' := by
  unfold reply at replied
  split at replied
  · rename_i nobody
    cases replied
    exact .unknown nobody
  rename_i client known
  split at replied
  · rename_i refused
    cases replied
    exact .unencodable known refused
  · rename_i packet encoded
    rcases Run.bind_eq_some replied with ⟨sent, s₁, sends, rest⟩ | ⟨e, sends, -⟩
    · have offers := sendOrQueueClientReply_offers sends
      cases sent with
      | false =>
          cases rest
          exact .offered known encoded offers
      | true =>
          cases rest
          exact .offered known encoded ⟨offers.offered, offers.writable⟩
    · unfold sendOrQueueClientReply at sends
      split at sends
      · cases sends
      split at sends
      · split at sends
        · cases sends
        · cases sends
      · cases sends

/-- The queue of the association is that of an outbox that the record is the account of. -/
def Booked (s : Posted ε ω) : Prop :=
  ∃ box : Outbox (Bytes × SocketAddr), Account s.world.2 box ∧ box.queue = s.pendingReplies

theorem Quiet.booked {s s' : Posted ε ω} (quiet : Quiet s s') (booked : Booked s) : Booked s' := by
  obtain ⟨box, account, queue⟩ := booked
  refine ⟨box, ?_, ?_⟩
  · rw [quiet.log]
    exact account
  · rw [quiet.pending]
    exact queue

/-- A post that is no offer is passed over. -/
theorem Booked.pass {s s' : Posted ε ω} (booked : Booked s) {post : Post}
    (other : ∀ packet client answer, post ≠ .offered packet client answer)
      (log : s'.world.2 = s.world.2 ++ [post])
    (pending : s'.pendingReplies = s.pendingReplies) : Booked s' := by
  obtain ⟨box, account, queue⟩ := booked
  refine ⟨box, ?_, ?_⟩
  · rw [log]
    exact account.pass other
  · rw [pending]
    exact queue

/-- One round of the flush is one more offer of the reply at the front. -/
theorem flushRound_booked (s : Posted ε ω × Bool) (booked : Booked s.1) :
    Booked (flushRound env.posted s).2.1 := by
  obtain ⟨box, account, queue⟩ := booked
  unfold flushRound
  split
  · exact ⟨box, account, queue⟩
  rename_i packet client rest front
  rw [front] at queue
  split
  · rename_i count world answer
    refine ⟨_, Env.posted_sendTo answer ▸ account.retry queue _, ?_⟩
    rw [Outbox.queue_retry queue, if_neg]
    simp [verdict_later_iff]
  · rename_i e world answer
    have retried := Env.posted_sendTo answer ▸ account.retry queue (.error e)
    split
    · rename_i blocks
      refine ⟨_, retried, ?_⟩
      rw [Outbox.queue_retry queue, if_pos (verdict_later_iff.mpr ⟨e, rfl, .inl blocks⟩)]
      exact front.symm
    rename_i goes
    split
    · rename_i again
      refine ⟨_, retried, ?_⟩
      rw [Outbox.queue_retry queue, if_pos (verdict_later_iff.mpr ⟨e, rfl, .inr again⟩)]
      exact front.symm
    · rename_i hard
      refine ⟨_, retried, ?_⟩
      rw [Outbox.queue_retry queue, if_neg]
      simp [verdict_later_iff, goes, hard]

theorem flush_booked (rounds : Nat) :
    Run.Preserves (Booked (ε := ε) (ω := ω)) (flushPendingClientReplies env.posted rounds) := by
  intro s result s' flushed booked
  obtain ⟨out, looped, rfl⟩ := Run.of_zoom flushed
  exact Run.Preserves.loop (I := fun s : Posted ε ω × Bool => Booked s.1)
    flushRound_booked _ _ _ looped booked

theorem receiveOutbound_arrivals {token : Nat} {s s' : Posted ε ω}
    {result : Except IoError (Option ReceivedDatagram)}
    (received : receiveOutbound (postedOutbounds outbounds) token s = some (result, s')) :
    s'.world.2 = s.world.2 ++ arrivals result ∧ s'.pendingReplies = s.pendingReplies ∧
      s'.relayWritable = s.relayWritable ∧ s'.clientAddress = s.clientAddress := by
  obtain ⟨out, taken, rfl⟩ := Run.of_zoom received
  exact ⟨DatagramRouteSet.receiveReady_recorded List.append_nil taken, rfl, rfl, rfl⟩

/-- The interest in the relay socket follows the queue, or the registration fails. -/
theorem updateRelayInterest_registers {s s' : Posted ε ω} {result : Except IoError Unit}
    (updated : updateRelayInterest env.posted s = some (result, s')) :
    s'.pendingReplies = s.pendingReplies ∧
      ((∃ e, result = .error e ∧ s'.world.2 = s.world.2 ∧ s'.relayWritable = s.relayWritable) ∨
        result = .ok () ∧ s'.relayWritable = !s.pendingReplies.isEmpty ∧
          (s'.relayWritable = s.relayWritable ∧ s'.world.2 = s.world.2 ∨
            s'.world.2 = s.world.2 ++ [.registered ⟨true, s'.relayWritable⟩])) := by
  unfold updateRelayInterest at updated
  dsimp only at updated
  split at updated
  · split at updated
    · rename_i answer
      cases updated
      exact ⟨rfl, .inr ⟨rfl, rfl, .inr (Env.posted_reregister answer)⟩⟩
    · rename_i answer
      cases updated
      exact ⟨rfl, .inl ⟨_, rfl, (Env.posted_reregister answer).trans (List.append_nil _), rfl⟩⟩
  · rename_i same
    cases updated
    have settled : (!s.pendingReplies.isEmpty) = s.relayWritable :=
      not_ne_iff.mp fun differs => same (bne_iff_ne.mpr differs)
    exact ⟨rfl, .inr ⟨rfl, settled.symm, .inl ⟨rfl, rfl⟩⟩⟩

theorem touch_booked : Run.Preserves (Booked (ε := ε) (ω := ω)) (touch env.posted) := by
  intro s result s' touched booked
  cases touched
  exact booked

theorem updateRelayInterest_booked :
    Run.Preserves (Booked (ε := ε) (ω := ω)) (updateRelayInterest env.posted) := by
  intro s result s' updated booked
  obtain ⟨pending, ⟨e, -, log, same⟩ | ⟨-, -, ⟨same, log⟩ | log⟩⟩ :=
    updateRelayInterest_registers updated
  · exact Quiet.booked ⟨log, pending, same⟩ booked
  · exact Quiet.booked ⟨log, pending, same⟩ booked
  · exact booked.pass (by simp) log pending

/-- What a turn of a ready route comes to: its route gives nothing, or a datagram that is replied
with. -/
inductive Turn (token : Nat) (tokens : List Nat) (burst : Nat) (writable : Bool) (s : Posted ε ω) :
    Except IoError Point → Posted ε ω → Prop where
  | nothing {result : Except IoError Point} {s' : Posted ε ω} (quiet : Quiet s s')
      (next : ∀ point, result = .ok point → point = .outbound tokens maxUdpEventBurst writable) :
      Turn token tokens burst writable s result s'
  | received {datagram : ReceivedDatagram} {s₁ s' : Posted ε ω} {outcome : Except IoError Unit}
      (log : s₁.world.2 = s.world.2 ++ [.received datagram])
        (pending : s₁.pendingReplies = s.pendingReplies)
      (same : s₁.relayWritable = s.relayWritable) (client : s₁.clientAddress = s.clientAddress)
      (replying : Replying datagram s₁ outcome s') :
      Turn token tokens burst writable s
        (outcome.map fun _ => .outbound (token :: tokens) burst writable) s'

theorem outbound_turn {controlIp : IpAddr} {rounds token burst : Nat}
    {tokens : List Nat} {writable : Bool}
    {s s' : Posted ε ω} {result : Except IoError Point}
    (proceeded : proceed env.posted runtime (postedOutbounds outbounds) controlIp rounds
      (.outbound (token :: tokens) (burst + 1) writable) s = some (result, s')) :
    Turn token tokens burst writable s result s' := by
  rcases Run.bind_eq_some proceeded with ⟨received, s₁, receives, rest⟩ | ⟨e, receives, rfl⟩
  · obtain ⟨log, pending, same, client⟩ := receiveOutbound_arrivals receives
    cases received with
    | none =>
        cases rest
        exact .nothing ⟨log.trans (List.append_nil _), pending, same⟩ fun point is =>
          (Except.ok.inj is).symm
    | some datagram =>
        rcases Run.bind_eq_some rest with ⟨_, s₂, replies, last⟩ | ⟨e, replies, rfl⟩
        · cases last
          exact @Turn.received _ _ token tokens burst writable s datagram s₁ _ (.ok ()) log
            pending same client
            (reply_replying replies)
        · exact @Turn.received _ _ token tokens burst writable s datagram s₁ _ (.error e) log
            pending same client
            (reply_replying replies)
  · obtain ⟨log, pending, same, -⟩ := receiveOutbound_arrivals receives
    refine .nothing ⟨log.trans (List.append_nil _), pending, same⟩ fun point no => ?_
    cases no

theorem Turn.booked {token burst : Nat} {tokens : List Nat} {writable : Bool} {s s' : Posted ε ω}
    {result : Except IoError Point} (turn : Turn token tokens burst writable s result s')
    (booked : Booked s) :
    Booked s' := by
  cases turn with
  | nothing quiet next => exact quiet.booked booked
  | @received datagram s₁ _ outcome log pending same client replying =>
      have received : Booked s₁ := booked.pass (by simp) log pending
      cases replying with
      | unknown nobody => exact received
      | unencodable known refused => exact received
      | offered known encoded offers =>
          obtain ⟨answer, offered, queue⟩ := offers.offered
          obtain ⟨box, account, same⟩ := booked
          have received : Account (s.world.2 ++ [.received datagram]) box := account.pass (by simp)
          refine ⟨_, ?_, queue box (same.trans pending.symm)⟩
          rw [offered, log]
          exact received.fresh encoded _ answer

/-- The queued replies, and then the interest. -/
theorem replies_booked {controlIp : IpAddr} {rounds : Nat} {writable : Bool} :
    Run.Preserves (Booked (ε := ε) (ω := ω))
      (proceed env.posted runtime (postedOutbounds outbounds) controlIp rounds
        (.replies writable)) := by
  have last :
      Run.Preserves (Booked (ε := ε) (ω := ω))
          (do updateRelayInterest env.posted; pure Point.top) :=
    updateRelayInterest_booked.bind fun _ => .pure _
  rw [proceed]
  cases writable with
  | false => exact last
  | true => exact (flush_booked rounds).bind fun sent => (touch_booked.when).bind fun _ => last

theorem step_booked {controlIp : IpAddr} {rounds : Nat} {point point' : Point}
    {s s' : Posted ε ω} (booked : Booked s)
    (stepped : step env.posted runtime (postedOutbounds outbounds) controlIp rounds point s =
      some (point', s')) :
    Booked s' := by
  have body : ∀ {result : Except IoError Point},
      proceed env.posted runtime (postedOutbounds outbounds) controlIp rounds point s =
          some (result, s') → Booked s' := by
    intro result proceeded
    match point with
    | .top =>
        have fields := pollEvents_fields proceeded
        have pending : s'.pendingReplies = s.pendingReplies := by rw [fields]
        have same : s'.relayWritable = s.relayWritable := by rw [fields]
        cases pollEvents_polled proceeded with
        | interrupted log => exact Quiet.booked ⟨log, pending, same⟩ booked
        | woken burst outbound writable log => exact booked.pass (by simp) log pending
        | ended ends log =>
            rcases log with log | ⟨writable, log⟩
            · exact Quiet.booked ⟨log, pending, same⟩ booked
            · exact booked.pass (by simp) log pending
    | .client 0 outbound writable =>
        cases proceeded
        exact booked
    | .client (burst + 1) outbound writable => exact (receiveClient_same proceeded).1.booked booked
    | .outbound [] burst writable =>
        cases proceeded
        exact booked
    | .outbound (token :: tokens) 0 writable =>
        cases proceeded
        exact booked
    | .outbound (token :: tokens) (burst + 1) writable =>
        exact (outbound_turn proceeded).booked booked
    | .replies writable => exact replies_booked _ _ _ proceeded booked
    | .returned final =>
        cases proceeded
        exact booked
  rcases step_cases env.posted runtime (postedOutbounds outbounds)
    stepped with proceeded | ⟨e, -, proceeded⟩
  · exact body proceeded
  · exact body proceeded

/-! ### Datagrams of the routes -/

/-- The record has grown, and by no datagram of a route. -/
def Unreceived (log : List Post) (s : Posted ε ω) : Prop :=
  ∃ new, s.world.2 = log ++ new ∧ ∀ datagram, .received datagram ∉ new

theorem Unreceived.of_same {log : List Post} {s : Posted ε ω}
    (same : s.world.2 = log) : Unreceived log s :=
  ⟨[], by rw [same, List.append_nil], nofun⟩

theorem Unreceived.post {log : List Post} {s s' : Posted ε ω}
    (unreceived : Unreceived log s) {post : Post}
    (other : ∀ datagram, post ≠ .received datagram) (grown : s'.world.2 = s.world.2 ++ [post]) :
      Unreceived log s' := by
  obtain ⟨new, same, none⟩ := unreceived
  refine ⟨new ++ [post], by rw [grown, same, List.append_assoc], fun datagram member => ?_⟩
  rcases List.mem_append.mp member with before | last
  · exact none datagram before
  · exact other datagram (List.mem_singleton.mp last).symm

theorem replies_unreceived {controlIp : IpAddr} {rounds : Nat} {writable : Bool} (log : List Post) :
    Run.Preserves (Unreceived (ε := ε) (ω := ω) log)
      (proceed env.posted runtime (postedOutbounds outbounds) controlIp rounds
        (.replies writable)) := by
  have update :
      Run.Preserves (Unreceived (ε := ε) (ω := ω) log) (updateRelayInterest env.posted) := by
    intro s result s' updated unreceived
    obtain ⟨-, ⟨e, -, same, -⟩ | ⟨-, -, ⟨-, same⟩ | grown⟩⟩ := updateRelayInterest_registers updated
    · unfold Unreceived
      rw [same]
      exact unreceived
    · unfold Unreceived
      rw [same]
      exact unreceived
    · exact unreceived.post (by simp) grown
  have last :
      Run.Preserves (Unreceived (ε := ε) (ω := ω) log)
          (do updateRelayInterest env.posted; pure Point.top) :=
    update.bind fun _ => .pure _
  have touched : Run.Preserves (Unreceived (ε := ε) (ω := ω) log) (touch env.posted) := by
    intro s result s' touched unreceived
    cases touched
    exact unreceived
  have round : ∀ s : Posted ε ω × Bool, Unreceived log s.1 →
      Unreceived log (flushRound env.posted s).2.1 := by
    intro s unreceived
    unfold flushRound
    split
    · exact unreceived
    split
    · rename_i answer
      exact unreceived.post (by simp) (Env.posted_sendTo answer)
    · rename_i answer
      split
      · exact unreceived.post (by simp) (Env.posted_sendTo answer)
      split
      · exact unreceived.post (by simp) (Env.posted_sendTo answer)
      · exact unreceived.post (by simp) (Env.posted_sendTo answer)
  have flush :
      Run.Preserves (Unreceived (ε := ε) (ω := ω) log)
          (flushPendingClientReplies env.posted rounds) := by
    intro s result s' flushed unreceived
    obtain ⟨out, looped, rfl⟩ := Run.of_zoom flushed
    exact Run.Preserves.loop (I := fun s : Posted ε ω × Bool => Unreceived log s.1) round _ _
      _ looped unreceived
  rw [proceed]
  cases writable with
  | false => exact last
  | true => exact flush.bind fun sent => touched.when.bind fun _ => last

/-- What becomes of a datagram of a route in the step that receives it. -/
inductive Fate (s : Posted ε ω) (datagram : ReceivedDatagram) : List Post → Point → Prop where
  | unknown (nobody : s.clientAddress = none) (point : Point) :
      Fate s datagram [.received datagram] point
  | unencodable {e : IoError}
      (refused : Socks5.encodeUdpResponse datagram.source datagram.payload = .error e) :
      Fate s datagram [.received datagram] (.returned (.error e))
  | offered {packet : Bytes} {client : SocketAddr} (known : s.clientAddress = some client)
      (encoded : Socks5.encodeUdpResponse datagram.source datagram.payload = .ok packet)
        (answer : Except IoError Nat)
      (point : Point) : Fate s datagram [.received datagram, .offered packet client answer] point

theorem step_fate {controlIp : IpAddr} {rounds : Nat} {point point' : Point} {s s' : Posted ε ω}
    (stepped : step env.posted runtime (postedOutbounds outbounds) controlIp rounds point s =
      some (point', s'))
    {new : List Post} (grown : s'.world.2 = s.world.2 ++ new) {datagram : ReceivedDatagram}
    (received : .received datagram ∈ new) : Fate s datagram new point' := by
  have never : ¬Unreceived s.world.2 s' := by
    rintro ⟨new', same, none⟩
    cases List.append_cancel_left (same.symm.trans grown)
    exact none datagram received
  have fate : ∀ {result : Except IoError Point},
      proceed env.posted runtime (postedOutbounds outbounds) controlIp rounds point s =
        some (result, s') →
        ∃ token tokens burst writable, Turn token tokens burst writable s result s' := by
    intro result proceeded
    match point with
    | .top =>
        refine absurd ?_ never
        cases pollEvents_polled proceeded with
        | interrupted log => exact .of_same log
        | woken burst outbound writable log => exact (Unreceived.of_same rfl).post (by simp) log
        | ended ends log =>
            rcases log with log | ⟨writable, log⟩
            · exact .of_same log
            · exact (Unreceived.of_same rfl).post (by simp) log
    | .client 0 outbound writable =>
        cases proceeded
        exact absurd (.of_same rfl) never
    | .client (burst + 1) outbound writable =>
        exact absurd (.of_same (receiveClient_same proceeded).1.log) never
    | .outbound [] burst writable =>
        cases proceeded
        exact absurd (.of_same rfl) never
    | .outbound (token :: tokens) 0 writable =>
        cases proceeded
        exact absurd (.of_same rfl) never
    | .outbound (token :: tokens) (burst + 1) writable =>
        exact ⟨_, _, _, _, outbound_turn proceeded⟩
    | .replies writable =>
        exact absurd (replies_unreceived s.world.2 _ _ _ proceeded (.of_same rfl)) never
    | .returned final =>
        cases proceeded
        exact absurd (.of_same rfl) never
  have ends :
    ∀ {result : Except IoError Point} {token burst : Nat} {tokens : List Nat} {writable : Bool},
      Turn token tokens burst writable s result s' →
        (∀ e, result = .error e → point' = .returned (.error e)) →
        Fate s datagram new point' := by
    intro result token burst tokens writable turn failed
    cases turn with
    | nothing quiet next => exact absurd (.of_same quiet.log) never
    | @received other s₁ _ outcome log pending same client replying =>
        cases replying with
        | unknown nobody =>
            cases List.append_cancel_left (log.symm.trans grown)
            cases List.mem_singleton.mp received
            exact .unknown (client ▸ nobody) _
        | unencodable known refused =>
            cases List.append_cancel_left (log.symm.trans grown)
            cases List.mem_singleton.mp received
            rw [failed _ rfl]
            exact .unencodable refused
        | offered known encoded offers =>
            obtain ⟨answer, offered, -⟩ := offers.offered
            rw [log, List.append_assoc] at offered
            cases List.append_cancel_left (offered.symm.trans grown)
            rcases List.mem_pair.mp received with first | no
            · cases first
              exact .offered (client ▸ known) encoded answer _
            · cases no
  rcases step_cases env.posted runtime (postedOutbounds outbounds)
    stepped with proceeded | ⟨e, rfl, proceeded⟩
  · obtain ⟨token, tokens, burst, writable, turn⟩ := fate proceeded
    refine ends turn fun e no => ?_
    cases no
  · obtain ⟨token, tokens, burst, writable, turn⟩ := fate proceeded
    refine ends turn fun e' is => ?_
    cases is
    rfl

variable (env) (runtime) (outbounds)

theorem booked_of_reaches {controlIp : IpAddr} {hint : Socks5.UdpClientHint} {world : ω}
    {point : Point} {s : Posted ε ω}
    (reached : Reaches env.posted runtime (postedOutbounds outbounds) (fun _ _ => True) controlIp
      (established env.posted controlIp hint (world, [])) point s) : Booked s := by
  refine reached.invariant _ _ _ (I := fun _ s => Booked s) ?_ ?_
  · exact ⟨{}, .start, rfl⟩
  · intro rounds point s point' s' booked _ stepped
    exact step_booked booked stepped

/-- The queue of an association is an outbox of at most 64 replies. Every reply that was encoded is
delivered, dropped or waiting, exactly once, and those that wait leave the queue in order; those
that are delivered are the offers that the relay socket took whole, and one that is dropped was
offered and not taken. A datagram of a route is offered to the client at once, where the client is
known and the datagram can be encoded for it. -/
theorem replies_are_accounted_for {controlIp : IpAddr} {hint : Socks5.UdpClientHint}
    {world : ω} {point : Point}
    {s : Posted ε ω}
    (reached : Reaches env.posted runtime (postedOutbounds outbounds) (fun _ _ => True) controlIp
      (established env.posted controlIp hint (world, [])) point s) :
    (∃ box : Outbox (Bytes × SocketAddr), Account s.world.2 box ∧ box.queue = s.pendingReplies ∧
        box.Sound maxPendingClientReplies ∧ box.delivered = whole s.world.2 ∧
        ∀ reply ∈ box.dropped, ∃ answer, .offered reply.1 reply.2 answer ∈ s.world.2 ∧
          verdict reply.1 answer ≠ .taken) ∧
      ∀ rounds point' s', step env.posted runtime (postedOutbounds outbounds)
        controlIp rounds point s =
          some (point', s') →
        ∀ new, s'.world.2 = s.world.2 ++ new → ∀ datagram, .received datagram ∈ new →
          Fate s datagram new point' := by
  obtain ⟨box, account, queue⟩ := booked_of_reaches env runtime outbounds reached
  refine ⟨⟨box, account, queue, account.sound, account.delivered, account.dropped⟩, ?_⟩
  intro rounds point' s' stepped new grown datagram received
  exact step_fate stepped grown received

/-- A packet of the client, then events of its route; the relay socket takes nothing. -/
abbrev blocked : Env Bool :=
  { Env.packetThenRoute [0, 0, 0, 1, 1, 2, 3, 4, 0, 80, 7] ⟨.v4 ⟨10, 0, 0, 1⟩, 5000⟩ with
    sendTo := fun _ _ => IoM.fail ⟨.wouldBlock, "full"⟩ }

theorem replies_are_accounted_for_example :
    ∃ (point : Point) (s : Posted (Opened Unit Unit) Bool),
      Reaches blocked.posted proxied (postedOutbounds replying) (fun _ _ => True)
        (.v4 ⟨10, 0, 0, 1⟩)
        (established blocked.posted (.v4 ⟨10, 0, 0, 1⟩) {} (true, [])) point s ∧
      s.pendingReplies.length = 1 ∧ ∃ box : Outbox (Bytes × SocketAddr), Account s.world.2 box ∧
        box.delivered = [] := by
  have run : (steps blocked.posted proxied (postedOutbounds replying) (.v4 ⟨10, 0, 0, 1⟩) 0 8
      (.top, established blocked.posted (.v4 ⟨10, 0, 0, 1⟩) {} (true, []))).any
        (fun out => out.2.pendingReplies.length == 1 && (whole out.2.world.2).isEmpty) = true := by
    decide +kernel
  obtain ⟨⟨point, s⟩, stepped, test⟩ := (Option.any_eq_true _ _).mp run
  simp only [Bool.and_eq_true, beq_iff_eq, List.isEmpty_iff] at test
  have reached := Reaches.steps _ _ _ .start stepped
  obtain ⟨⟨box, account, -, -, delivered, -⟩, -⟩ :=
    replies_are_accounted_for blocked proxied replying reached
  exact ⟨point, s, reached, test.1, box, account, delivered.trans test.2⟩

end Commeatus.Daemon.Socks5Udp
