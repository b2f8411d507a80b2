import Commeatus.Lib.Inbox
import Commeatus.Daemon.DatagramFrame

/-!
The inbound sockets of the datagram executors under edge-triggered readiness.

An event for the inbound socket is followed by at most 32 reads. If none of
them finds the socket empty, what is left waits for an event that only a new
arrival brings. In runs whose bursts end at an empty socket, or with an event
owed, no datagram waits unannounced at the poll.
-/

namespace Commeatus.Daemon

open Commeatus.Lib Commeatus.Core

variable {ε ω α : Type}

/-- The same outbounds; datagrams may arrive at the inbound socket while they are called. -/
def besideInbox (arrivals : ω → List α) (outbounds : Outbounds ε ω) :
    Outbounds ε (ω × Inbox α) where
  capabilities := outbounds.capabilities
  openDatagram endpoint :=
    Run.zoom Prod.fst (Inbox.after arrivals) (outbounds.openDatagram endpoint)
  execution :=
    { readinessSourceCount := outbounds.execution.readinessSourceCount
      registerReadiness tokens := fun s =>
        let out := outbounds.execution.registerReadiness tokens (s.1, s.2.1)
        (out.1, (out.2.1, Inbox.after arrivals out.2.2 s.2))
      send target payload :=
        Run.zoom (fun s => (s.1, s.2.1)) (fun out s => (out.1, Inbox.after arrivals out.2 s.2))
          (outbounds.execution.send target payload)
      receive limit :=
        Run.zoom (fun s => (s.1, s.2.1)) (fun out s => (out.1, Inbox.after arrivals out.2 s.2))
          (outbounds.execution.receive limit) }

variable {P : Inbox α → Prop}

theorem besideInbox_keeps (stable : Inbox.Stable P) (arrivals : ω → List α)
    (outbounds : Outbounds ε ω) :
    (besideInbox arrivals outbounds).Keeps fun world => P world.2 := by
  constructor
  · intro endpoint s result s' opened start
    obtain ⟨world, -, rfl⟩ := Run.of_zoom opened
    exact stable.arrive _ start
  · intro tokens s start
    exact stable.arrive _ start
  · intro target payload s result s' sent start
    simp only [besideInbox] at sent
    obtain ⟨out, -, rfl⟩ := Run.of_zoom sent
    exact stable.arrive _ start
  · intro limit s result s' received start
    simp only [besideInbox] at received
    obtain ⟨out, -, rfl⟩ := Run.of_zoom received
    exact stable.arrive _ start

/-! ### The SOCKS5 executor -/

namespace Socks5Udp

def clientReadable (events : List PollEvent) : Bool :=
  events.any fun e => e.token == udpClientToken && e.readiness.readable

def wouldBlock : IoError := ⟨.wouldBlock, "operation would block"⟩

/-- The same outside with the relay socket; the former read only says whether a read fails. -/
def Env.polled (arrivals : ω → List (Bytes × SocketAddr)) (env : Env ω) :
    Env (ω × Inbox (Bytes × SocketAddr)) where
  now := Inbox.besideValue arrivals env.now
  nextFlowId := Inbox.besideValue arrivals env.nextFlowId
  poll timeout := Inbox.besidePoll arrivals clientReadable (env.poll timeout)
  controlRead limit := Inbox.beside arrivals (env.controlRead limit)
  recvFrom limit := fun s =>
    match env.recvFrom limit s.1 with
    | (.ok _, world) => Inbox.take arrivals wouldBlock world s
    | (.error e, world) =>
        if e.kind = .wouldBlock then Inbox.take arrivals wouldBlock world s
        else (.error e, Inbox.after arrivals world s)
  sendTo packet client := Inbox.beside arrivals (env.sendTo packet client)
  reregister interest := fun s =>
    match env.reregister interest s.1 with
    | (.error e, world) => (.error e, Inbox.after arrivals world s)
    | (.ok (), world) => (.ok (), Inbox.after arrivals world (s.1, s.2.reregister))

variable {P : Inbox (Bytes × SocketAddr) → Prop}
    (arrivals : ω → List (Bytes × SocketAddr)) (env : Env ω)
  (runtime : Runtime) (outbounds : Outbounds ε ω)

theorem polled_keeps (stable : Inbox.Stable P) :
    (env.polled arrivals).Keeps fun world => P world.2 := by
  constructor
  · exact fun start => stable.arrive _ start
  · exact fun start => stable.arrive _ start
  · exact fun limit world start => stable.arrive _ start
  · exact fun packet client world start => stable.arrive _ start
  · intro interest world start
    simp only [Env.polled]
    split
    · exact stable.arrive _ start
    · exact stable.arrive _ (stable.reregister start)

/-- A read finds a datagram, finds the socket empty, or fails. -/
theorem polled_recvFrom {limit : Nat} {s s' : ω × Inbox (Bytes × SocketAddr)}
    {result : Except IoError (Bytes × SocketAddr)} (sound : s.2.Sound)
    (read : (env.polled arrivals).recvFrom limit s = (result, s')) :
    s'.2.Sound ∧ ((∃ datagram, result = .ok datagram) ∨
      ∃ e, result = .error e ∧ (e.kind = .wouldBlock → s'.2.Announced)) := by
  have taken : ∀ {world}, Inbox.take arrivals wouldBlock world s = (result, s') →
      s'.2.Sound ∧ ((∃ datagram, result = .ok datagram) ∨
        ∃ e, result = .error e ∧ (e.kind = .wouldBlock → s'.2.Announced)) := by
    intro world took
    obtain ⟨next, found | ⟨empty, announced⟩⟩ := Inbox.take_cases sound took
    · exact ⟨next, .inl found⟩
    · exact ⟨next, .inr ⟨wouldBlock, empty, fun _ => announced⟩⟩
  simp only [Env.polled] at read
  split at read
  · exact taken read
  · split at read
    · exact taken read
    · rename_i e world _ hard
      cases read
      exact ⟨sound.arrive _, .inr ⟨e, rfl, fun blocks => absurd blocks hard⟩⟩

/-- What is known of the relay socket where the loop stands. -/
def Held (s : Association ε (ω × Inbox (Bytes × SocketAddr))) : Point → Prop
  | .client (_ + 1) _ _ => s.world.2.Sound
  | .returned _ => True
  | _ => s.world.2.Sound ∧ s.world.2.Announced

theorem held_of_announced {s : Association ε (ω × Inbox (Bytes × SocketAddr))}
    (both : s.world.2.Sound ∧ s.world.2.Announced) (point : Point) : Held s point := by
  match point with
  | .top => exact both
  | .client 0 _ _ => exact both
  | .client (_ + 1) _ _ => exact both.1
  | .outbound _ _ _ => exact both
  | .replies _ => exact both
  | .returned _ => trivial

/-- The last read of a burst does not find the socket empty, and no event is owed after it. -/
def Exhausts (env : Env (ω × Inbox (Bytes × SocketAddr)))
    (s : Association ε (ω × Inbox (Bytes × SocketAddr)))
    (point : Point) : Prop :=
  ∃ tokens writable result world, point = .client 1 tokens writable ∧
    env.recvFrom maxUdpPacket s.world = (result, world) ∧
      (∀ e, result = .error e → e.kind = .interrupted) ∧
      world.2.outstanding = false

theorem pollEvents_held {s s' : Association ε (ω × Inbox (Bytes × SocketAddr))} {point : Point}
    (held : s.world.2.Sound ∧ s.world.2.Announced)
    (polled : pollEvents (env.polled arrivals) s = some (.ok point, s')) : Held s' point := by
  have keeps := polled_keeps arrivals env Inbox.stable_announced
  have keepsSound := polled_keeps arrivals env Inbox.stable_sound
  obtain ⟨sound, announced⟩ := keeps.now held
  unfold pollEvents at polled
  dsimp only at polled
  split at polled
  · cases polled
    trivial
  split at polled
  · rename_i e world answer
    obtain ⟨sound', ⟨batch, no, -⟩ | announced'⟩ := Inbox.besidePoll_cases sound announced answer
    · cases no
    · split at polled
      · cases polled
        exact ⟨sound', announced'⟩
      · cases polled
  · rename_i events world answer
    split at polled
    · cases polled
      trivial
    have closes :=
      controlClosed_frame keepsSound.controlRead events
        (Inbox.besidePoll_cases sound announced answer).1
    split at polled
    · cases polled
    · cases polled
      trivial
    · rename_i reported
      rw [reported] at closes
      cases polled
      unfold dispatch
      dsimp only
      obtain ⟨sound', ⟨batch, same, delivered⟩ | announced'⟩ :=
        Inbox.besidePoll_cases sound announced answer
      · cases same
        have readable : (events.any fun e => e.token == udpClientToken && e.readiness.readable) =
            true := delivered
        rw [readable]
        exact closes
      · have both := controlClosed_frame keeps.controlRead events ⟨sound', announced'⟩
        rw [reported] at both
        split
        · exact closes
        · exact both

theorem receiveClient_held {controlIp : IpAddr} {burst : Nat} {tokens : List Nat} {writable : Bool}
    {s s' : Association ε (ω × Inbox (Bytes × SocketAddr))} {point : Point}
    (sound : s.world.2.Sound)
    (within : ¬Exhausts (env.polled arrivals) s (.client (burst + 1) tokens writable))
    (received : receiveClient (env.polled arrivals) runtime (besideInbox arrivals outbounds)
      controlIp burst tokens
      writable s = some (.ok point, s')) : Held s' point := by
  have keeps : ∀ {P}, Inbox.Stable P → (env.polled arrivals).Keeps fun world => P world.2 :=
    fun stable => polled_keeps arrivals env stable
  have kept : ∀ {P}, Inbox.Stable P →
      (besideInbox arrivals outbounds).Keeps fun world => P world.2 :=
    fun stable => besideInbox_keeps stable arrivals outbounds
  -- A burst that is not over leaves nothing to show but soundness; one that is over has met
  -- `within`.
  have held : ∀ {world} {s₁ : Association ε (ω × Inbox (Bytes × SocketAddr))} {result},
      (env.polled arrivals).recvFrom maxUdpPacket s.world = (result, world) →
      (∀ e, result = .error e → e.kind = .interrupted) → world.2.Sound →
      (∀ {P}, Inbox.Stable P → P world.2 → P s₁.world.2) →
          Held s₁ (.client burst tokens writable) := by
    intro world s₁ result answer soft sound' moves
    cases burst with
    | zero =>
        have owed : world.2.outstanding = true := by
          by_contra none
          exact within ⟨tokens, writable, result, world, rfl, answer, soft, by simpa using none⟩
        exact moves Inbox.stable_announced ⟨sound', .inr owed⟩
    | succ burst => exact moves Inbox.stable_sound sound'
  cases receiveClient_cases (env.polled arrivals) runtime
      (besideInbox arrivals outbounds) received with
  | foreign arrived other =>
      obtain ⟨sound', -⟩ := polled_recvFrom arrivals env sound arrived
      exact held arrived (fun e no => nomatch no) sound' fun _ => id
  | refused arrived own handled =>
      obtain ⟨sound', -⟩ := polled_recvFrom arrivals env sound arrived
      refine held arrived (fun e no => nomatch no) sound' fun stable start => ?_
      exact handleUdpClientPacket_keeps (keeps stable) (kept stable) runtime _ _ _ _ handled start
  | accepted arrived own handled accepts =>
      obtain ⟨sound', -⟩ := polled_recvFrom arrivals env sound arrived
      refine held arrived (fun e no => nomatch no) sound' fun stable start => ?_
      have handles :=
        handleUdpClientPacket_keeps (keeps stable) (kept stable) runtime _ _ _ _ handled start
      exact accept_keeps (keeps stable) _ _ _ _ accepts handles
  | drained answer blocks =>
      obtain ⟨sound', ⟨datagram, no⟩ | ⟨e', same, announced⟩⟩ :=
        polled_recvFrom arrivals env sound answer
      · cases no
      · cases same
        exact ⟨sound', announced blocks⟩
  | interrupted answer again =>
      obtain ⟨sound', -⟩ := polled_recvFrom arrivals env sound answer
      refine held answer (fun e same => ?_) sound' fun _ => id
      cases same
      exact again

/-- One step keeps what is known of the relay socket, unless it exhausts a burst. -/
theorem step_held {controlIp : IpAddr} {rounds : Nat} {point point' : Point}
    {s s' : Association ε (ω × Inbox (Bytes × SocketAddr))} (held : Held s point)
    (within : ¬Exhausts (env.polled arrivals) s point)
    (stepped : step (env.polled arrivals) runtime (besideInbox arrivals outbounds)
      controlIp rounds point s =
      some (point', s')) : Held s' point' := by
  rcases step_cases (env.polled arrivals) runtime (besideInbox arrivals outbounds)
    stepped with proceeded | ⟨e, rfl, -⟩
  case inr => exact trivial
  by_cases polls : point = .top
  · subst polls
    exact pollEvents_held arrivals env held proceeded
  by_cases reads : ∃ burst tokens writable, point = .client (burst + 1) tokens writable
  · obtain ⟨burst, tokens, writable, rfl⟩ := reads
    exact receiveClient_held arrivals env runtime outbounds held within proceeded
  · have elsewhere : ∀ burst tokens writable, point ≠ .client (burst + 1) tokens writable :=
      fun burst tokens writable same => reads ⟨burst, tokens, writable, same⟩
    have kept := proceed_keeps (polled_keeps arrivals env Inbox.stable_announced)
      (besideInbox_keeps Inbox.stable_announced arrivals outbounds) runtime controlIp
        rounds polls elsewhere
      s _ s' proceeded
    match point with
    | .top => exact absurd rfl polls
    | .client 0 _ _ => exact held_of_announced (kept held) _
    | .client (burst + 1) tokens writable => exact absurd rfl (elsewhere burst tokens writable)
    | .outbound _ _ _ => exact held_of_announced (kept held) _
    | .replies _ => exact held_of_announced (kept held) _
    | .returned _ =>
        cases proceeded
        trivial

/-- In runs in which no burst of reads is exhausted. -/
theorem held_of_reaches {controlIp : IpAddr} {hint : Socks5.UdpClientHint} {world : ω}
    {waiting : List (Bytes × SocketAddr)} {point : Point}
    {s : Association ε (ω × Inbox (Bytes × SocketAddr))}
    (reached : Reaches (env.polled arrivals) runtime (besideInbox arrivals outbounds)
      (fun point s => ¬Exhausts (env.polled arrivals) s point) controlIp
      (established (env.polled arrivals) controlIp hint (world, .registered waiting)) point s) :
    Held s point := by
  induction reached with
  | start =>
      exact ⟨(Inbox.sound_registered waiting).arrive _,
        (Inbox.announced_registered waiting).arrive _⟩
  | step rounds _ within stepped held =>
      exact step_held arrivals env runtime outbounds held within stepped

end Socks5Udp

/-! ### The transparent executor -/

namespace TransparentUdp

def inboundReadable (events : List PollEvent) : Bool :=
  events.any fun e => e.token == inboundToken && e.readiness.readable

/-- The same outside with the listening socket; the former read only says whether a read fails. -/
def Env.polled (arrivals : ω → List Message) (env : Env ω) : Env (ω × Inbox Message) where
  now := Inbox.besideValue arrivals env.now
  nextFlowId := Inbox.besideValue arrivals env.nextFlowId
  poll timeout := Inbox.besidePoll arrivals inboundReadable (env.poll timeout)
  recvmsg limit := fun s =>
    match env.recvmsg limit s.1 with
    | (.error .interrupted, world) => (.error .interrupted, Inbox.after arrivals world s)
    | (.error (.other e), world) => (.error (.other e), Inbox.after arrivals world s)
    | (_, world) => Inbox.take arrivals .again world s
  bindTransparentReplySocket address :=
    Inbox.beside arrivals (env.bindTransparentReplySocket address)
  replySendTo source payload client := Inbox.beside arrivals (env.replySendTo source payload client)

variable {P : Inbox Message → Prop} (arrivals : ω → List Message) (env : Env ω) (runtime : Runtime)
  (outbounds : Outbounds ε ω)

theorem polled_keeps (stable : Inbox.Stable P) :
    (env.polled arrivals).Keeps fun world => P world.2 := by
  constructor
  · exact fun start => stable.arrive _ start
  · exact fun start => stable.arrive _ start
  · exact fun address world start => stable.arrive _ start
  · exact fun source payload client world start => stable.arrive _ start

/-- A read finds a message, finds the socket empty, or fails. -/
theorem polled_recvmsg {limit : Nat} {s s' : ω × Inbox Message} {result : Except RecvError Message}
    (sound : s.2.Sound) (read : (env.polled arrivals).recvmsg limit s = (result, s')) :
    s'.2.Sound ∧ (result = .error .again → s'.2.Announced) := by
  have taken : ∀ {world}, Inbox.take arrivals RecvError.again world s = (result, s') →
      s'.2.Sound ∧ (result = .error .again → s'.2.Announced) := by
    intro world took
    obtain ⟨next, ⟨datagram, found⟩ | ⟨empty, announced⟩⟩ := Inbox.take_cases sound took
    · refine ⟨next, fun no => ?_⟩
      rw [found] at no
      cases no
    · exact ⟨next, fun _ => announced⟩
  simp only [Env.polled] at read
  split at read
  · cases read
    exact ⟨sound.arrive _, fun no => nomatch no⟩
  · cases read
    exact ⟨sound.arrive _, fun no => nomatch no⟩
  · exact taken read

/-- What is known of the listening socket where the loop stands. -/
def Held (s : Listener ε (ω × Inbox Message)) : Point → Prop
  | .inbound (_ + 1) _ => s.world.2.Sound
  | .returned _ => True
  | _ => s.world.2.Sound ∧ s.world.2.Announced

theorem held_of_announced {s : Listener ε (ω × Inbox Message)}
    (both : s.world.2.Sound ∧ s.world.2.Announced)
    (point : Point) : Held s point := by
  match point with
  | .top => exact both
  | .inbound 0 _ => exact both
  | .inbound (_ + 1) _ => exact both.1
  | .outbound _ _ => exact both
  | .returned _ => trivial

/-- A read that is interrupted, or that is the last of a burst and gives a datagram, ends the burst
with no event owed. -/
def Exhausts (env : Env (ω × Inbox Message)) (s : Listener ε (ω × Inbox Message))
    (point : Point) : Prop :=
  ∃ burst events result world, point = .inbound (burst + 1) events ∧
    env.recvmsg maxPacket s.world = (result, world) ∧
      (result = .error .interrupted ∨ (burst = 0 ∧ ∃ message datagram, result = .ok message ∧
        message.datagram = .ok datagram)) ∧ world.2.outstanding = false

theorem pollEvents_held {s s' : Listener ε (ω × Inbox Message)} {point : Point}
    (held : s.world.2.Sound ∧ s.world.2.Announced)
    (polled : pollEvents (env.polled arrivals) s = some (.ok point, s')) : Held s' point := by
  have keeps := polled_keeps arrivals env Inbox.stable_announced
  rcases Run.bind_eq_some polled with ⟨now, s₁, timed, rest⟩ | ⟨e, -, no⟩
  · obtain ⟨sound, announced⟩ := instant_keeps keeps s _ s₁ timed held
    dsimp only at rest
    split at rest
    · rename_i e world answer
      obtain ⟨sound', ⟨batch, no, -⟩ | announced'⟩ := Inbox.besidePoll_cases sound announced answer
      · cases no
      · split at rest
        · cases rest
          exact ⟨sound', announced'⟩
        · cases rest
    · rename_i events world answer
      cases rest
      have inbox : ∀ t : Listener ε (ω × Inbox Message),
          (cleanupIdleClients ((env.polled arrivals).now world).1 t).world = t.world :=
        cleanupIdleClients_world _
      obtain ⟨sound', ⟨batch, same, delivered⟩ | announced'⟩ :=
        Inbox.besidePoll_cases sound announced answer
      · cases same
        have readable : (events.any fun e => e.token == inboundToken && e.readiness.readable) =
            true := delivered
        rw [readable]
        show Inbox.Sound (Prod.snd (cleanupIdleClients _ _).world)
        rw [inbox]
        exact sound'.arrive _
      · have both :=
          Inbox.stable_announced.arrive (arrivals (env.now world.1).2) ⟨sound', announced'⟩
        refine held_of_announced ?_ _
        show Inbox.Sound (Prod.snd (cleanupIdleClients _ _).world) ∧
          Inbox.Announced (Prod.snd (cleanupIdleClients _ _).world)
        rw [inbox]
        exact both
  · cases no

theorem receiveInbound_held {burst : Nat} {events : List PollEvent}
    {s s' : Listener ε (ω × Inbox Message)}
    {point : Point} (sound : s.world.2.Sound)
    (within : ¬Exhausts (env.polled arrivals) s (.inbound (burst + 1) events))
    (received : receiveInbound (env.polled arrivals) runtime
      (besideInbox arrivals outbounds) burst events s =
      some (.ok point, s')) : Held s' point := by
  have ended : ∀ {result world}, (env.polled arrivals).recvmsg maxPacket s.world = (result, world) →
      (result = .error .interrupted ∨ (burst = 0 ∧ ∃ message datagram, result = .ok message ∧
        message.datagram = .ok datagram)) → world.2.Announced := by
    intro result world answer ends
    refine .inr ?_
    by_contra none
    exact within ⟨burst, events, result, world, rfl, answer, ends, by simpa using none⟩
  cases receiveInbound_cases (env.polled arrivals) runtime
      (besideInbox arrivals outbounds) received with
  | drained empty =>
      cases recvOriginalDatagram_cases (env.polled arrivals) empty with
      | again answer =>
          obtain ⟨sound', announced⟩ := polled_recvmsg arrivals env sound answer
          exact ⟨sound', announced rfl⟩
      | interrupted answer =>
          obtain ⟨sound', -⟩ := polled_recvmsg arrivals env sound answer
          exact ⟨sound', ended answer (.inl rfl)⟩
  | @arrived datagram world accepted s₁ _ read handled touched =>
      cases recvOriginalDatagram_cases (env.polled arrivals) read with
      | @received message _ _ answer checked =>
          obtain ⟨sound', -⟩ := polled_recvmsg arrivals env sound answer
          have moves : ∀ {P}, Inbox.Stable P → P world.2 → P s'.world.2 := by
            intro P stable start
            have keeps := polled_keeps arrivals env stable
            have kept := besideInbox_keeps stable arrivals outbounds
            have handles := handleInbound_keeps keeps kept runtime datagram _ _ _ handled start
            exact (touch_keeps keeps datagram.client).when _ _ _ touched handles
          cases burst with
          | zero =>
              have announced := ended answer (.inr ⟨rfl, message, datagram, rfl, checked⟩)
              exact moves Inbox.stable_announced ⟨sound', announced⟩
          | succ burst => exact moves Inbox.stable_sound sound'

/-- One step keeps what is known of the listening socket, unless it exhausts a burst. -/
theorem step_held {point point' : Point} {s s' : Listener ε (ω × Inbox Message)}
    (held : Held s point)
    (within : ¬Exhausts (env.polled arrivals) s point)
    (stepped : step (env.polled arrivals) runtime (besideInbox arrivals outbounds) point s =
      some (point', s')) :
    Held s' point' := by
  rcases step_cases (env.polled arrivals) runtime (besideInbox arrivals outbounds)
    stepped with proceeded | ⟨e, rfl, -⟩
  case inr => exact trivial
  by_cases polls : point = .top
  · subst polls
    exact pollEvents_held arrivals env held proceeded
  by_cases reads : ∃ burst events, point = .inbound (burst + 1) events
  · obtain ⟨burst, events, rfl⟩ := reads
    exact receiveInbound_held arrivals env runtime outbounds held within proceeded
  · have elsewhere : ∀ burst events, point ≠ .inbound (burst + 1) events :=
      fun burst events same => reads ⟨burst, events, same⟩
    have kept := proceed_keeps (polled_keeps arrivals env Inbox.stable_announced)
      (besideInbox_keeps Inbox.stable_announced arrivals outbounds) runtime polls
        elsewhere s _ s' proceeded
    match point with
    | .top => exact absurd rfl polls
    | .inbound 0 _ => exact held_of_announced (kept held) _
    | .inbound (burst + 1) events => exact absurd rfl (elsewhere burst events)
    | .outbound _ _ => exact held_of_announced (kept held) _
    | .returned _ =>
        cases proceeded
        trivial

/-- In runs in which no burst of reads is exhausted. -/
theorem held_of_reaches {world : ω} {waiting : List Message} {point : Point}
    {s : Listener ε (ω × Inbox Message)}
    (reached : Reaches (env.polled arrivals) runtime (besideInbox arrivals outbounds)
      (fun point s => ¬Exhausts (env.polled arrivals) s point)
      { world := (world, .registered waiting) } point s) : Held s point := by
  induction reached with
  | start => exact ⟨Inbox.sound_registered waiting, Inbox.announced_registered waiting⟩
  | step _ within stepped held => exact step_held arrivals env runtime outbounds held within stepped

end TransparentUdp

/-! ### No datagram waits unannounced -/

/-- In runs in which no burst of reads is exhausted, both executors go back to the poll with their
inbound socket read until it was empty, or an event owed for it; in particular no datagram waits
in it without an event. -/
theorem inbound_announced_at_poll (runtime : Runtime) (outbounds : Outbounds ε ω) (world : ω) :
    (∀ arrivals env controlIp hint waiting s,
      Socks5Udp.Reaches (Socks5Udp.Env.polled arrivals env) runtime (besideInbox arrivals outbounds)
          (fun point s => ¬Socks5Udp.Exhausts (Socks5Udp.Env.polled arrivals env) s point)
          controlIp (Socks5Udp.established (Socks5Udp.Env.polled arrivals env) controlIp hint
            (world, .registered waiting)) .top s →
        s.world.2.Announced ∧ (s.world.2.queue ≠ [] → s.world.2.outstanding = true)) ∧
    ∀ arrivals env waiting s,
      TransparentUdp.Reaches (TransparentUdp.Env.polled arrivals env) runtime
          (besideInbox arrivals outbounds)
          (fun point s => ¬TransparentUdp.Exhausts (TransparentUdp.Env.polled arrivals env) s point)
          { world := (world, .registered waiting) } .top s →
        s.world.2.Announced ∧ (s.world.2.queue ≠ [] → s.world.2.outstanding = true) := by
  constructor
  · intro arrivals env controlIp hint waiting s reached
    obtain ⟨sound, announced⟩ := Socks5Udp.held_of_reaches arrivals env runtime outbounds reached
    exact ⟨announced, announced.waiting sound⟩
  · intro arrivals env waiting s reached
    obtain ⟨sound, announced⟩ :=
      TransparentUdp.held_of_reaches arrivals env runtime outbounds reached
    exact ⟨announced, announced.waiting sound⟩

/-- The proxy endpoint's outbounds; its routes receive nothing. -/
abbrev silentRoutes : Outbounds (Opened Unit Unit) Bool :=
  (OutboundRegistry.single proxyOne).outbounds (.scripted (.ok none))

/-- An association of the peer 10.0.0.1 whose poll reports the relay socket. -/
abbrev polledRelay : Socks5Udp.Env (Bool × Inbox (Bytes × SocketAddr)) :=
  Socks5Udp.Env.polled (fun _ => []) (.onePacket [] ⟨.v4 ⟨10, 0, 0, 1⟩, 5000⟩)

/-- The association finds the given number of packets of a foreign address in its relay socket. -/
abbrev flooded (packets : Nat) :
    Socks5Udp.Association (Opened Unit Unit) (Bool × Inbox (Bytes × SocketAddr)) :=
  Socks5Udp.established polledRelay (.v4 ⟨10, 0, 0, 1⟩) {}
    (false, .registered (List.replicate packets ([7], ⟨.v4 ⟨10, 0, 0, 2⟩, 4000⟩)))

/-- Two packets are read, and the next read finds the socket empty. -/
theorem inbound_announced_at_poll_example :
    ∃ s, Socks5Udp.Reaches polledRelay proxied (besideInbox (fun _ => []) silentRoutes)
        (fun point s => ¬Socks5Udp.Exhausts polledRelay s point) (.v4 ⟨10, 0, 0, 1⟩)
          (flooded 2) .top s ∧
      s.world.2.queue = [] ∧ s.world.2.outstanding = false ∧ s.world.2.Announced := by
  have run : ∃ s, Socks5Udp.Reaches polledRelay proxied (besideInbox (fun _ => []) silentRoutes)
      (fun point s => ¬Socks5Udp.Exhausts polledRelay s point) (.v4 ⟨10, 0, 0, 1⟩) (flooded 2) .top
          s ∧ s.world.2.queue = [] ∧ s.world.2.outstanding = false := by
    refine ⟨_,
      .step 0
        (.step 0 (.step 0 (.step 0 (.step 0 (.step 0 .start ?_ rfl) ?_ rfl) ?_ rfl) ?_ rfl) ?_ rfl)
      ?_ rfl, rfl, rfl⟩
    all_goals
      rintro ⟨tokens, writable, result, world, here, -⟩
      cases here
  obtain ⟨s, reached, empty, quiet⟩ := run
  refine ⟨s, reached, empty, quiet, ?_⟩
  exact ((inbound_announced_at_poll proxied silentRoutes false).1 (fun _ => [])
    _ _ {} _ s reached).1

/-- Whether the loop is before its poll with a packet unread and no event owed. -/
def waitsAtPoll (out : Socks5Udp.Point ×
    Socks5Udp.Association (Opened Unit Unit) (Bool × Inbox (Bytes × SocketAddr))) :
    Bool :=
  match out.1 with
  | .top => !out.2.world.2.queue.isEmpty && !out.2.world.2.outstanding && !out.2.world.2.emptied
  | _ => false

/-- 33 packets wait when the association begins. After 32 reads it goes back to the poll, with a
packet unread and no event for it. -/
theorem packet_waits_unannounced :
    ∃ s, Socks5Udp.Reaches polledRelay proxied (besideInbox (fun _ => []) silentRoutes)
        (fun _ _ => True) (.v4 ⟨10, 0, 0, 1⟩) (flooded 33) .top s ∧
      s.world.2.queue ≠ [] ∧ s.world.2.outstanding = false ∧ ¬s.world.2.Announced := by
  have run :
    (Socks5Udp.steps polledRelay proxied (besideInbox (fun _ => []) silentRoutes)
      (.v4 ⟨10, 0, 0, 1⟩) 0 36
      (.top, flooded 33)).any waitsAtPoll = true := by
    decide +kernel
  obtain ⟨⟨point, s⟩, stepped, test⟩ := (Option.any_eq_true _ _).mp run
  unfold waitsAtPoll at test
  cases point with
  | top =>
      simp only [Bool.and_eq_true, Bool.not_eq_true', List.isEmpty_eq_false_iff] at test
      obtain ⟨⟨waits, quiet⟩, unread⟩ := test
      refine ⟨s, .steps _ _ _ .start stepped, waits, quiet, ?_⟩
      rintro (emptied | owed)
      · rw [unread] at emptied
        cases emptied
      · rw [quiet] at owed
        cases owed
  | client burst tokens writable => cases test
  | outbound tokens burst writable => cases test
  | replies writable => cases test
  | returned result => cases test

end Commeatus.Daemon
