import Commeatus.Daemon.DatagramRecord

/-!
The client of a SOCKS5 UDP association.

An association serves one client address: the one its request named, or the
source of the first packet that was accepted. The journal of a run holds the
replies that were sent and the datagrams that were handed to a route.
-/

namespace Commeatus.Daemon.Socks5Udp

open Commeatus.Lib Commeatus.Core

variable {ε ω : Type}

/-! ### The journal -/

/-- Replies with the address they were sent to, and datagrams handed to a route. -/
structure Journal where
  sent : List (Bytes × SocketAddr) := []
  handed : List (Target × Bytes) := []

/-- The same outside, with each reply in the journal. -/
abbrev Env.journaled (env : Env ω) : Env (ω × Journal) :=
  env.recorded
    { replied := fun packet client _ journal =>
        { journal with sent := journal.sent ++ [(packet, client)] } }

/-- The same outbounds, with each datagram that is handed to a route in the journal. -/
abbrev journaledOutbounds (outbounds : Outbounds ε ω) : Outbounds ε (ω × Journal) :=
  outbounds.recorded
    { sent := fun _ target payload _ journal =>
        { journal with handed := journal.handed ++ [(target, payload)] } }

abbrev Journaled (ε ω : Type) : Type := Association ε (ω × Journal)

/-! ### The lock -/

/-- Replies are queued for the client only and at most 64 of them, and no reply was sent to anyone
else. -/
structure Locked (s : Journaled ε ω) : Prop where
  queued : ∀ reply ∈ s.pendingReplies, s.clientAddress = some reply.2
  bounded : s.pendingReplies.length ≤ maxPendingClientReplies
  sent : ∀ reply ∈ s.world.2.sent, s.clientAddress = some reply.2

/-- A packet of the client that is parsed, planned for an endpoint that carries UDP, and taken by
its route. -/
def Accepted (env : Env ω) (runtime : Runtime) (outbounds : Outbounds ε ω) (controlIp : IpAddr)
    (s : Association ε ω) (packet : Bytes) (source : SocketAddr) (world : ω) : Prop :=
  isClientPacket source controlIp s.clientAddress = true ∧
    ∃ target payload endpoint out, Socks5.parseUdpRequest packet = .ok (target, payload) ∧
      outbounds.select runtime target (env.nextFlowId world).1 = some endpoint ∧
      DatagramRouteSet.sendWith outbounds.execution outbounds.openDatagram endpoint target payload
        ⟨s.routes, s.routeTokens, (env.nextFlowId world).2⟩ = some (.ok (), out)

variable (env : Env ω) (runtime : Runtime) {outbounds : Outbounds ε ω}

/-- What the lock is made of, with the time of the last activity. -/
structure Same (s s' : Journaled ε ω) : Prop where
  client : s'.clientAddress = s.clientAddress
  pending : s'.pendingReplies = s.pendingReplies
  activity : s'.lastActivity = s.lastActivity
  sent : s'.world.2.sent = s.world.2.sent

theorem Locked.of_parts {s s' : Journaled ε ω} (locked : Locked s)
    (client : s'.clientAddress = s.clientAddress)
    (pending : s'.pendingReplies = s.pendingReplies) (sent : s'.world.2.sent = s.world.2.sent) :
    Locked s' := by
  constructor
  · rw [client, pending]
    exact locked.queued
  · rw [pending]
    exact locked.bounded
  · rw [client, sent]
    exact locked.sent

/-- A client that was not known yet is locked without any reply behind it. -/
theorem Locked.set {s s' : Journaled ε ω} (locked : Locked s) {source : SocketAddr}
    (client : s'.clientAddress = s.clientAddress.or (some source))
    (pending : s'.pendingReplies = s.pendingReplies) (sent : s'.world.2.sent = s.world.2.sent) :
    Locked s' := by
  have keeps : ∀ address, s.clientAddress = some address → s'.clientAddress = some address := by
    intro address known
    rw [client, known]
    rfl
  constructor
  · rw [pending]
    intro reply member
    exact keeps _ (locked.queued reply member)
  · rw [pending]
    exact locked.bounded
  · rw [sent]
    intro reply member
    exact keeps _ (locked.sent reply member)

open DatagramRouteSet

theorem sendWith_sent (endpoint : Endpoint) (target : Target) (payload : Bytes) :
    Run.Keeps (fun s : Egress ε (ω × Journal) => s.world.2.sent)
      (sendWith (journaledOutbounds outbounds).execution (journaledOutbounds outbounds).openDatagram
        endpoint target payload) := by
  intro s result s' sending
  have keeps : (journaledOutbounds outbounds).Keeps fun world => world.2.sent = s.world.2.sent :=
    Outbounds.recorded_keeps (W := fun journal : Journal => journal.sent = s.world.2.sent)
      (fun _ _ => id)
      (fun _ _ _ _ _ same => same) fun _ _ => id
  exact sendWith_keeps keeps endpoint target payload s result s' sending rfl

/-- Whether a packet is accepted is whether it is parsed, planned and taken by its route; apart from
that the handling changes nothing of the lock. -/
theorem handleUdpClientPacket_same {packet : Bytes} {s s' : Journaled ε ω}
    {result : Except IoError Bool}
    (handled : handleUdpClientPacket env.journaled runtime (journaledOutbounds outbounds) packet s =
      some (result, s')) :
    Same s s' ∧ ∃ accepted : Bool, result = .ok accepted ∧ (accepted = true ↔
      ∃ target payload endpoint out, Socks5.parseUdpRequest packet = .ok (target, payload) ∧
        (journaledOutbounds outbounds).select runtime target (env.journaled.nextFlowId s.world).1 =
          some endpoint ∧
        sendWith (journaledOutbounds outbounds).execution
          (journaledOutbounds outbounds).openDatagram endpoint
          target payload ⟨s.routes, s.routeTokens, (env.journaled.nextFlowId s.world).2⟩ =
            some (.ok (), out)) := by
  cases handleUdpClientPacket_cases env.journaled runtime
      (journaledOutbounds outbounds) handled with
  | malformed parsed =>
      refine ⟨⟨rfl, rfl, rfl, rfl⟩, false, rfl, ?_⟩
      constructor
      · nofun
      · rintro ⟨target, payload, endpoint, out, other, -⟩
        cases parsed.symm.trans other
  | unplanned parsed selected =>
      refine ⟨⟨rfl, rfl, rfl, rfl⟩, false, rfl, ?_⟩
      constructor
      · nofun
      · rintro ⟨target', payload', endpoint, out, same, other, -⟩
        cases parsed.symm.trans same
        cases selected.symm.trans other
  | @routed target payload endpoint result' out parsed selected sending =>
      refine ⟨⟨rfl, rfl, rfl, sendWith_sent _ _ _ _ _ _ sending⟩, _, rfl, ?_⟩
      constructor
      · intro taken
        cases result' with
        | ok a => exact ⟨target, payload, endpoint, out, parsed, selected, sending⟩
        | error e => cases taken
      · rintro ⟨target', payload', endpoint', out', same, selected', sending'⟩
        cases parsed.symm.trans same
        cases selected.symm.trans selected'
        have agree := sending.symm.trans sending'
        cases agree
        rfl

/-- What the read of a packet does to the lock. -/
inductive Reads (outbounds : Outbounds ε ω) (controlIp : IpAddr) (s s' : Journaled ε ω) : Prop
  | nothing {e : IoError} {world : ω × Journal}
      (failed : env.journaled.recvFrom maxUdpPacket s.world = (.error e, world))
        (last : s' = { s with world := world })
  | foreign {packet : Bytes} {source : SocketAddr} {world : ω × Journal}
      (arrived : env.journaled.recvFrom maxUdpPacket s.world = (.ok (packet, source), world))
      (other : isClientPacket source controlIp s.clientAddress = false)
        (last : s' = { s with world := world })
  | refused {packet : Bytes} {source : SocketAddr} {world : ω × Journal}
      (arrived : env.journaled.recvFrom maxUdpPacket s.world = (.ok (packet, source), world))
      (own : isClientPacket source controlIp s.clientAddress = true)
      (refused : ¬Accepted env.journaled runtime (journaledOutbounds outbounds) controlIp s
        packet source world)
      (same : Same s s')
  | accepted {packet : Bytes} {source : SocketAddr} {world : ω × Journal}
      (arrived : env.journaled.recvFrom maxUdpPacket s.world = (.ok (packet, source), world))
      (accepted : Accepted env.journaled runtime (journaledOutbounds outbounds) controlIp s
        packet source world)
      (client : s'.clientAddress = s.clientAddress.or (some source))
      (rest : s'.pendingReplies = s.pendingReplies ∧ s'.world.2.sent = s.world.2.sent)

theorem receiveClient_reads {controlIp : IpAddr} {burst : Nat}
    {outbound : List Nat} {writable : Bool}
    {s s' : Journaled ε ω} {result : Except IoError Point}
    (received : receiveClient env.journaled runtime (journaledOutbounds outbounds)
      controlIp burst outbound
      writable s = some (result, s')) : Reads env runtime outbounds controlIp s s' := by
  cases receiveClient_cases env.journaled runtime (journaledOutbounds outbounds) received with
  | foreign arrived other => exact .foreign arrived other rfl
  | @refused packet source world _ arrived own handled =>
      have journal : world.2 = s.world.2 := congrArg (·.2.2) arrived.symm
      obtain ⟨same, accepted, is, iff⟩ := handleUdpClientPacket_same env runtime handled
      cases is
      refine .refused arrived own ?_ ⟨same.client, same.pending, same.activity, ?_⟩
      · rintro ⟨-, taken⟩
        cases iff.mpr taken
      · exact same.sent.trans (congrArg Journal.sent journal)
  | @accepted packet source world s₁ _ arrived own handled accepts =>
      have journal : world.2 = s.world.2 := congrArg (·.2.2) arrived.symm
      obtain ⟨same, accepted, is, iff⟩ := handleUdpClientPacket_same env runtime handled
      cases is
      cases accepts
      refine .accepted arrived ⟨own, iff.mp rfl⟩ ?_ ⟨same.pending, ?_⟩
      · show s₁.clientAddress.or (some source) = _
        rw [same.client]
      · exact same.sent.trans (congrArg Journal.sent journal)
  | drained answer blocks => exact .nothing answer rfl
  | interrupted answer again => exact .nothing answer rfl
  | failed answer hard => exact .nothing answer rfl

/-! ### The other steps -/

theorem Same.locked {s s' : Journaled ε ω} (same : Same s s') (locked : Locked s) : Locked s' :=
  locked.of_parts same.client same.pending same.sent

/-- The poll changes nothing of the lock and forwards nothing. -/
theorem pollEvents_same {s s' : Journaled ε ω} {result : Except IoError Point}
    (polled : pollEvents env.journaled s = some (result, s')) :
    Same s s' ∧ s'.world.2 = s.world.2 := by
  have journal : s'.world.2 = s.world.2 :=
    pollEvents_world (W := fun world => world.2 = s.world.2) (fun same => same)
      (fun _ _ same => same) (fun _ _ same => same)
      polled rfl
  have fields := pollEvents_fields polled
  refine ⟨⟨?_, ?_, ?_, congrArg Journal.sent journal⟩, journal⟩
  · rw [fields]
  · rw [fields]
  · rw [fields]

/-- The client stays, a reply goes to it or is queued for it, and nothing is handed to a route. -/
structure Replies (s s' : Journaled ε ω) : Prop where
  client : s'.clientAddress = s.clientAddress
  handed : s'.world.2.handed = s.world.2.handed
  locked : Locked s → Locked s'

theorem Replies.refl (s : Journaled ε ω) : Replies s s := ⟨rfl, rfl, id⟩

theorem Replies.trans {s s₁ s' : Journaled ε ω} (first : Replies s s₁)
    (next : Replies s₁ s') : Replies s s' :=
  ⟨next.client.trans first.client, next.handed.trans first.handed,
    fun locked => next.locked (first.locked locked)⟩

theorem Replies.of_parts {s s' : Journaled ε ω} (client : s'.clientAddress = s.clientAddress)
    (pending : s'.pendingReplies = s.pendingReplies) (journal : s'.world.2 = s.world.2) :
    Replies s s' :=
  ⟨client, congrArg Journal.handed journal,
    fun locked => locked.of_parts client pending (congrArg Journal.sent journal)⟩

/-- A computation that only replies. -/
def OnlyReplies {α : Type} (x : Run (Journaled ε ω) α) : Prop :=
  ∀ s result s', x s = some (result, s') → Replies s s'

theorem OnlyReplies.bind {α β : Type} {x : Run (Journaled ε ω) α} {f : α → Run (Journaled ε ω) β}
    (first : OnlyReplies x) (next : ∀ a, OnlyReplies (f a)) : OnlyReplies (x >>= f) := by
  intro s result s'' h
  rcases Run.bind_eq_some h with ⟨a, s', hx, hf⟩ | ⟨e, hx, -⟩
  · exact (first s _ _ hx).trans (next a s' _ _ hf)
  · exact first s _ _ hx

theorem OnlyReplies.pure {α : Type} (a : α) : OnlyReplies (pure a : Run (Journaled ε ω) α) := by
  intro s result s' h
  cases h
  exact .refl s

theorem OnlyReplies.when {condition : Bool} {x : Run (Journaled ε ω) Unit} (only : OnlyReplies x) :
    OnlyReplies (Run.when condition x) := by
  unfold Run.when
  split
  · exact only
  · exact .pure ()

theorem touch_replies : OnlyReplies (touch (ε := ε) env.journaled) := by
  intro s result s' h
  cases h
  exact .of_parts rfl rfl rfl

theorem updateRelayInterest_replies : OnlyReplies (updateRelayInterest (ε := ε) env.journaled) := by
  intro s result s' h
  unfold updateRelayInterest at h
  dsimp only at h
  split at h
  · split at h
    · rename_i answer
      cases h
      exact .of_parts rfl rfl (congrArg (·.2.2) answer.symm)
    · rename_i answer
      cases h
      exact .of_parts rfl rfl (congrArg (·.2.2) answer.symm)
  · cases h
    exact .refl s

theorem receiveOutbound_replies (token : Nat) :
    OnlyReplies (receiveOutbound (journaledOutbounds outbounds) token) := by
  intro s result s' h
  obtain ⟨out, got, rfl⟩ := Run.of_zoom h
  refine .of_parts rfl rfl ?_
  show out.2.2 = s.world.2
  exact receiveReady_recorded (fun _ => rfl) got

/-- A reply was sent to the client, whatever became of it. -/
theorem Locked.sends {s s' : Journaled ε ω} {packet : Bytes}
    {client : SocketAddr} (locked : Locked s)
    (known : s.clientAddress = some client) (same : s'.clientAddress = s.clientAddress)
    (queued : ∀ reply ∈ s'.pendingReplies, reply ∈ s.pendingReplies ∨ reply.2 = client)
    (bounded : s'.pendingReplies.length ≤ maxPendingClientReplies)
    (sent : s'.world.2.sent = s.world.2.sent ++ [(packet, client)]) : Locked s' := by
  rw [← same] at known
  constructor
  · intro reply member
    rcases queued reply member with before | new
    · rw [same]
      exact locked.queued reply before
    · rw [new]
      exact known
  · exact bounded
  · intro reply member
    rw [sent] at member
    rcases List.mem_append.mp member with before | new
    · rw [same]
      exact locked.sent reply before
    · rw [List.mem_singleton.mp new]
      exact known

theorem sendTo_journal {packet : Bytes} {client : SocketAddr} {world world' : ω × Journal}
    {result : Except IoError Nat}
    (answer : env.journaled.sendTo packet client world = (result, world')) :
    world'.2.sent = world.2.sent ++ [(packet, client)] ∧ world'.2.handed = world.2.handed := by
  have journal : world'.2 = { world.2 with sent := world.2.sent ++ [(packet, client)] } :=
    congrArg (·.2.2) answer.symm
  rw [journal]
  exact ⟨rfl, rfl⟩

theorem sendOrQueueClientReply_replies {packet : Bytes} {client : SocketAddr} {s s' : Journaled ε ω}
    {result : Except IoError Bool} (known : s.clientAddress = some client)
    (h : sendOrQueueClientReply env.journaled packet client s = some (result, s')) :
    Replies s s' := by
  unfold sendOrQueueClientReply at h
  match answer : env.journaled.sendTo packet client s.world with
  | (.ok sent, world) =>
      obtain ⟨sent', handed⟩ := sendTo_journal env answer
      rw [answer] at h
      cases h
      exact ⟨rfl, handed, fun locked => locked.sends known rfl (fun _ => .inl) locked.bounded sent'⟩
  | (.error e, world) =>
      obtain ⟨sent', handed⟩ := sendTo_journal env answer
      rw [answer] at h
      dsimp only at h
      have unqueued : Replies s { s with world := world } :=
        ⟨rfl, handed, fun locked => locked.sends known rfl (fun _ => .inl) locked.bounded sent'⟩
      split at h
      · split at h
        · cases h
          exact unqueued
        · rename_i room
          cases h
          refine ⟨rfl, handed, fun locked => locked.sends known rfl ?_ ?_ sent'⟩
          · intro reply member
            rcases List.mem_append.mp member with before | new
            · exact .inl before
            · rw [List.mem_singleton.mp new]
              exact .inr rfl
          · rw [List.length_append]
            exact Nat.lt_of_not_le room
      · cases h
        exact unqueued

theorem reply_replies (received : ReceivedDatagram) :
    OnlyReplies (reply (ε := ε) env.journaled received) := by
  intro s result s' h
  unfold reply at h
  split at h
  · cases h
    exact .refl s
  rename_i client known
  split at h
  · cases h
    exact .refl s
  rcases Run.bind_eq_some h with ⟨sent, s₁, first, rest⟩ | ⟨e, first, -⟩
  · exact (sendOrQueueClientReply_replies env known first).trans
      ((touch_replies env).when s₁ _ _ rest)
  · exact sendOrQueueClientReply_replies env known first

/-- A round sends the first of the queued replies, to the client. -/
theorem flushRound_replies (s : Journaled ε ω × Bool) (locked : Locked s.1) :
    Replies s.1 (flushRound env.journaled s).2.1 := by
  unfold flushRound
  split
  · exact .refl _
  rename_i packet client rest pending
  have known : s.1.clientAddress = some client :=
    locked.queued (packet, client) (pending ▸ List.mem_cons_self)
  have shorter : rest.length ≤ maxPendingClientReplies := by
    have bounded := locked.bounded
    rw [pending, List.length_cons] at bounded
    omega
  have kept :
    ∀ {world : ω × Journal} {pending' : List (Bytes × SocketAddr)} {sent : Except IoError Nat},
      env.journaled.sendTo packet client s.1.world = (sent, world) →
        (pending' = s.1.pendingReplies ∨ pending' = rest) →
          Replies s.1 { s.1 with world := world, pendingReplies := pending' } := by
    intro world pending' sent answer left
    obtain ⟨sent', handed⟩ := sendTo_journal env answer
    refine ⟨rfl, handed, fun _ => locked.sends known rfl ?_ ?_ sent'⟩
    · rcases left with rfl | rfl
      · exact fun _ => .inl
      · exact fun _ member => .inl (pending ▸ List.mem_cons_of_mem _ member)
    · rcases left with rfl | rfl
      · exact locked.bounded
      · exact shorter
  split
  · rename_i answer
    exact kept answer (.inr rfl)
  · rename_i answer
    split
    · exact kept answer (.inl rfl)
    split
    · exact kept answer (.inl rfl)
    · exact kept answer (.inr rfl)

theorem flushPendingClientReplies_replies {rounds : Nat} {s s' : Journaled ε ω}
    {result : Except IoError Bool}
    (locked : Locked s) (h : flushPendingClientReplies env.journaled rounds s = some (result, s')) :
    Replies s s' := by
  obtain ⟨out, looped, rfl⟩ := Run.of_zoom h
  have invariant : Run.Preserves (fun t : Journaled ε ω × Bool => Locked t.1 ∧ Replies s t.1)
      (Run.loop rounds (flushRound env.journaled)) := by
    refine Run.Preserves.loop ?_
    rintro t ⟨now, since⟩
    have round := flushRound_replies env t now
    exact ⟨round.locked now, since.trans round⟩
  have kept := invariant (s, false) result out looped ⟨locked, .refl s⟩
  exact kept.2

/-! ### Whole runs -/

/-- The packet that a step reads from the relay socket. -/
def Arrives (env : Env ω) (point : Point) (s : Association ε ω) (packet : Bytes)
    (source : SocketAddr)
    (world : ω) : Prop :=
  (∃ burst tokens writable, point = .client (burst + 1) tokens writable) ∧
    env.recvFrom maxUdpPacket s.world = (.ok (packet, source), world)

/-- The poll gives a batch of events in which the control connection is closed. -/
def ControlClosed (env : Env ω) (s : Association ε ω) : Prop :=
  ∃ events world world',
    env.poll (udpIdleTimeout - ((env.now s.world).1 - s.lastActivity)) (env.now s.world).2 =
      (.ok events, world) ∧
      controlClosed env events world = (.ok true, world')

/-- What a step does to the lock. -/
structure Serves (outbounds : Outbounds ε ω) (controlIp : IpAddr)
    (point : Point) (s : Journaled ε ω)
    (point' : Point) (s' : Journaled ε ω) : Prop where
  keeps : ∀ address, s.clientAddress = some address → s'.clientAddress = some address
  sets : ∀ address, s.clientAddress = none → s'.clientAddress = some address →
    ∃ packet world, Arrives env.journaled point s packet address world ∧
      Accepted env.journaled runtime (journaledOutbounds outbounds) controlIp s packet address world
  hands : s'.world.2.handed ≠ s.world.2.handed →
    ∃ packet source world, Arrives env.journaled point s packet source world ∧
      isClientPacket source controlIp s.clientAddress = true
  foreign : ∀ packet source world, Arrives env.journaled point s packet source world →
    isClientPacket source controlIp s.clientAddress = false → s' = { s with world := world }
  refused : ∀ packet source world, Arrives env.journaled point s packet source world →
    ¬Accepted env.journaled runtime (journaledOutbounds outbounds) controlIp s packet source world →
      s'.clientAddress = s.clientAddress ∧ s'.lastActivity = s.lastActivity
  closed : point = .top → ControlClosed env.journaled s →
    point' = .returned (.ok ()) ∧ s'.world.2 = s.world.2

/-- Away from the client's packets the loop only replies. -/
theorem proceed_replies {controlIp : IpAddr} {rounds : Nat} {point : Point} {s s' : Journaled ε ω}
    {result : Except IoError Point} (locked : Locked s)
    (elsewhere : ∀ burst tokens writable, point ≠ .client (burst + 1) tokens writable)
    (proceeds : proceed env.journaled runtime (journaledOutbounds outbounds)
      controlIp rounds point s =
      some (result, s')) : Replies s s' := by
  cases point with
  | top =>
      obtain ⟨same, journal⟩ := pollEvents_same env proceeds
      exact .of_parts same.client same.pending journal
  | client burst tokens writable =>
      cases burst with
      | zero =>
          cases proceeds
          exact .refl s
      | succ burst => exact absurd rfl (elsewhere burst tokens writable)
  | outbound tokens burst writable =>
      cases tokens with
      | nil =>
          cases proceeds
          exact .refl s
      | cons token tokens =>
          cases burst with
          | zero =>
              cases proceeds
              exact .refl s
          | succ burst =>
              refine OnlyReplies.bind (receiveOutbound_replies token) (fun received => ?_)
                s _ _ proceeds
              cases received with
              | none => exact .pure _
              | some received => exact .bind (reply_replies env received) fun _ => .pure _
  | replies writable =>
      have interest : OnlyReplies (do updateRelayInterest (ε := ε) env.journaled; pure Point.top) :=
        .bind (updateRelayInterest_replies env) fun _ => .pure _
      rw [proceed] at proceeds
      cases writable with
      | false =>
          exact interest s _ _ proceeds
      | true =>
          rcases Run.bind_eq_some proceeds with ⟨sent, s₁, flushed, rest⟩ | ⟨e, flushed, -⟩
          · have first := flushPendingClientReplies_replies env locked flushed
            exact first.trans (OnlyReplies.bind (touch_replies env).when
              (fun _ => interest) s₁ _ _ rest)
          · exact flushPendingClientReplies_replies env locked flushed
  | returned result =>
      cases proceeds
      exact .refl s

theorem pollEvents_closed {s s' : Association ε ω} {result : Except IoError Point}
    (closed : ControlClosed env s) (polled : pollEvents env s = some (result, s')) :
    result = .ok (.returned (.ok ())) := by
  obtain ⟨events, world, world', batch, reported⟩ := closed
  unfold pollEvents at polled
  dsimp only at polled
  split at polled
  · cases polled
    rfl
  rw [batch] at polled
  dsimp only at polled
  split at polled
  · cases polled
    rfl
  rw [reported] at polled
  cases polled
  rfl

/-- The read of a packet serves the client only. -/
theorem Reads.serves {controlIp : IpAddr} {burst : Nat} {tokens : List Nat}
    {writable : Bool} {point' : Point}
    {s s' : Journaled ε ω} (reads : Reads env runtime outbounds controlIp s s')
    (locked : Locked s) :
    Locked s' ∧ Serves env runtime outbounds controlIp
      (.client (burst + 1) tokens writable) s point' s' := by
  have here : ∀ {packet source world}, env.journaled.recvFrom maxUdpPacket s.world =
    (.ok (packet, source), world) →
      Arrives env.journaled (.client (burst + 1) tokens writable) s packet source world :=
    fun arrived => ⟨⟨burst, tokens, writable, rfl⟩, arrived⟩
  cases reads with
  | nothing failed last =>
      subst last
      have journal := congrArg (·.2.2) failed.symm
      refine ⟨locked.of_parts rfl rfl (congrArg Journal.sent journal), ?_⟩
      have absent : ∀ {packet source world},
          ¬Arrives env.journaled (.client (burst + 1) tokens writable) s packet source world := by
        rintro packet source world ⟨-, arrived⟩
        rw [failed] at arrived
        cases arrived
      constructor
      · exact fun _ known => known
      · intro address unknown known
        rw [unknown] at known
        cases known
      · exact fun changed => absurd (congrArg Journal.handed journal) changed
      · exact fun _ _ _ arrives => absurd arrives absent
      · exact fun _ _ _ arrives => absurd arrives absent
      · nofun
  | foreign arrived other last =>
      subst last
      have journal := congrArg (·.2.2) arrived.symm
      refine ⟨locked.of_parts rfl rfl (congrArg Journal.sent journal), ?_⟩
      constructor
      · exact fun _ known => known
      · intro address unknown known
        rw [unknown] at known
        cases known
      · exact fun changed => absurd (congrArg Journal.handed journal) changed
      · rintro packet source world ⟨-, arrived'⟩ -
        rw [arrived] at arrived'
        cases arrived'
        rfl
      · exact fun _ _ _ _ _ => ⟨rfl, rfl⟩
      · nofun
  | refused arrived own refused same =>
      refine ⟨same.locked locked, ?_⟩
      constructor
      · intro address known
        rw [same.client]
        exact known
      · intro address unknown known
        rw [same.client, unknown] at known
        cases known
      · exact fun _ => ⟨_, _, _, here arrived, own⟩
      · rintro packet source world ⟨-, arrived'⟩ other
        rw [arrived] at arrived'
        cases arrived'
        cases own.symm.trans other
      · exact fun _ _ _ _ _ => ⟨same.client, same.activity⟩
      · nofun
  | accepted arrived accepted client rest =>
      refine ⟨locked.set client rest.1 rest.2, ?_⟩
      constructor
      · intro address known
        rw [client, known]
        rfl
      · intro address unknown known
        rw [client, unknown] at known
        cases known
        exact ⟨_, _, here arrived, accepted⟩
      · exact fun _ => ⟨_, _, _, here arrived, accepted.1⟩
      · rintro packet source world ⟨-, arrived'⟩ other
        rw [arrived] at arrived'
        cases arrived'
        cases accepted.1.symm.trans other
      · rintro packet source world ⟨-, arrived'⟩ refused
        rw [arrived] at arrived'
        cases arrived'
        exact absurd accepted refused
      · nofun

/-- Every step keeps the lock. -/
theorem step_serves {controlIp : IpAddr} {rounds : Nat} {point point' : Point}
    {s s' : Journaled ε ω}
    (locked : Locked s)
    (stepped : step env.journaled runtime (journaledOutbounds outbounds) controlIp rounds point s =
      some (point', s')) :
      Locked s' ∧ Serves env runtime outbounds controlIp point s point' s' := by
  obtain ⟨result, proceeds, next⟩ : ∃ result,
      proceed env.journaled runtime (journaledOutbounds outbounds) controlIp rounds point s =
        some (result, s') ∧
        (∀ point'', result = .ok point'' → point' = point'') := by
    rcases step_cases env.journaled runtime (journaledOutbounds outbounds)
      stepped with proceeds | ⟨e, -, proceeds⟩
    · exact ⟨_, proceeds, fun _ same => by cases same; rfl⟩
    · exact ⟨_, proceeds, fun _ no => nomatch no⟩
  by_cases elsewhere : ∀ burst tokens writable, point ≠ .client (burst + 1) tokens writable
  · have replies := proceed_replies env runtime locked elsewhere proceeds
    have absent : ∀ {packet source world}, ¬Arrives env.journaled point s packet source world := by
      rintro packet source world ⟨⟨burst, tokens, writable, here⟩, -⟩
      exact elsewhere burst tokens writable here
    refine ⟨replies.locked locked, ?_⟩
    constructor
    · intro address known
      rw [replies.client]
      exact known
    · intro address unknown known
      rw [replies.client, unknown] at known
      cases known
    · exact fun changed => absurd replies.handed changed
    · exact fun _ _ _ arrives => absurd arrives absent
    · exact fun _ _ _ arrives => absurd arrives absent
    · rintro rfl closed
      exact ⟨next _ (pollEvents_closed env.journaled closed proceeds),
        (pollEvents_same env proceeds).2⟩
  · simp only [not_forall, not_not] at elsewhere
    obtain ⟨burst, tokens, writable, rfl⟩ := elsewhere
    exact (receiveClient_reads env runtime proceeds).serves env runtime locked

theorem locked_of_reaches {controlIp : IpAddr} {hint : Socks5.UdpClientHint} {world : ω}
    {point : Point} {s : Journaled ε ω}
    (reached : Reaches env.journaled runtime (journaledOutbounds outbounds) (fun _ _ => True)
      controlIp (established env.journaled controlIp hint (world, {})) point s) :
    Locked s ∧ ∀ port, hint.port = some port → s.clientAddress = some ⟨controlIp, port⟩ := by
  refine reached.invariant _ _ _ (I := fun _ s => Locked s ∧
    ∀ port, hint.port = some port → s.clientAddress = some ⟨controlIp, port⟩) ?_ ?_
  · refine ⟨⟨nofun, Nat.zero_le _, nofun⟩, ?_⟩
    intro port named
    exact congrArg (Option.map (SocketAddr.mk controlIp)) named
  · intro rounds point s point' s' ⟨locked, kept⟩ _ stepped
    obtain ⟨locked', serves⟩ := step_serves env runtime locked stepped
    exact ⟨locked', fun port named => serves.keeps _ (kept port named)⟩

/-- An association serves one client. In every state of every run the queued replies, at most 64,
and the sent ones are for the client's address; it is set once, by a packet that was accepted;
packets of others and packets that are not accepted change nothing of it, and when the control
connection is found closed the loop returns without a datagram in either direction. -/
theorem udp_client_is_locked (outbounds : Outbounds ε ω) {controlIp : IpAddr}
    {hint : Socks5.UdpClientHint} {world : ω}
    {point : Point} {s : Journaled ε ω}
    (reached : Reaches env.journaled runtime (journaledOutbounds outbounds) (fun _ _ => True)
      controlIp (established env.journaled controlIp hint (world, {})) point s) :
    Locked s ∧ (∀ port, hint.port = some port → s.clientAddress = some ⟨controlIp, port⟩) ∧
      (∀ rounds point' s', step env.journaled runtime (journaledOutbounds outbounds)
        controlIp rounds point s =
        some (point', s') → Serves env runtime outbounds controlIp point s point' s') ∧
      ∀ result, point = .returned result → ∀ rounds,
        step env.journaled runtime (journaledOutbounds outbounds) controlIp rounds point s =
          some (point, s) := by
  obtain ⟨locked, named⟩ := locked_of_reaches env runtime reached
  refine ⟨locked, named, ?_, ?_⟩
  · intro rounds point' s' stepped
    exact (step_serves env runtime locked stepped).2
  · rintro result rfl rounds
    rfl

/-- The proxy endpoint's outbounds; a receive always gives a datagram from 5.6.7.8:80. -/
abbrev replying : Outbounds (Opened Unit Unit) Bool :=
  (OutboundRegistry.single proxyOne).outbounds
    (.scripted (.ok (some ⟨⟨.ip (.v4 ⟨5, 6, 7, 8⟩), 80, httpPort_ne_zero⟩, [9]⟩)))

/-- The first packet sets the client's address, and the reply of its route goes there. -/
theorem udp_client_is_locked_example :
    ∃ s,
      Reaches (Env.onePacket [0, 0, 0, 1, 1, 2, 3, 4, 0, 80, 7] ⟨.v4 ⟨10, 0, 0, 1⟩, 5000⟩).journaled
        proxied
        (journaledOutbounds replying) (fun _ _ => True) (.v4 ⟨10, 0, 0, 1⟩)
        (established (Env.onePacket [0, 0, 0, 1, 1, 2, 3, 4, 0, 80, 7]
          ⟨.v4 ⟨10, 0, 0, 1⟩, 5000⟩).journaled
          (.v4 ⟨10, 0, 0, 1⟩) {} (true, {})) (.client 31 [] false) s ∧
      s.clientAddress = some ⟨.v4 ⟨10, 0, 0, 1⟩, 5000⟩ ∧
      s.world.2.handed = [(⟨.ip (.v4 ⟨1, 2, 3, 4⟩), 80, by decide⟩, [7])] ∧ Locked s := by
  have run : ∃ s, Reaches
        (Env.onePacket [0, 0, 0, 1, 1, 2, 3, 4, 0, 80, 7] ⟨.v4 ⟨10, 0, 0, 1⟩, 5000⟩).journaled
          proxied
        (journaledOutbounds replying) (fun _ _ => True) (.v4 ⟨10, 0, 0, 1⟩)
        (established (Env.onePacket [0, 0, 0, 1, 1, 2, 3, 4, 0, 80, 7]
          ⟨.v4 ⟨10, 0, 0, 1⟩, 5000⟩).journaled
          (.v4 ⟨10, 0, 0, 1⟩) {} (true, {})) (.client 31 [] false) s ∧
      s.clientAddress = some ⟨.v4 ⟨10, 0, 0, 1⟩, 5000⟩ ∧
      s.world.2.handed = [(⟨.ip (.v4 ⟨1, 2, 3, 4⟩), 80, by decide⟩, [7])] :=
    ⟨_, .step 0 (.step 0 .start trivial rfl) trivial rfl, rfl, rfl⟩
  obtain ⟨s, reached, client, handed⟩ := run
  exact ⟨s, reached, client, handed, (udp_client_is_locked _ proxied replying reached).1⟩

end Commeatus.Daemon.Socks5Udp
