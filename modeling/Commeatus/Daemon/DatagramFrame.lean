import Commeatus.Daemon.Socks5Udp
import Commeatus.Daemon.TransparentUdp

/-!
What holds of the outside while the datagram executors run.

A property of the outside that every call on it preserves is preserved by every
part of an executor. The poll and the read from the inbound socket are left to
the user: they are where such properties are broken and restored.
-/

namespace Commeatus.Daemon

open Commeatus.Lib Commeatus.Core

variable {ε ω : Type} {W : ω → Prop}

structure Outbounds.Keeps (outbounds : Outbounds ε ω) (W : ω → Prop) : Prop where
  opens : ∀ endpoint, Run.Preserves W (outbounds.openDatagram endpoint)
  registers : ∀ tokens s, W s.2 → W (outbounds.execution.registerReadiness tokens s).2.2
  sends : ∀ target payload, Run.Preserves (fun s => W s.2) (outbounds.execution.send target payload)
  receives : ∀ limit, Run.Preserves (fun s => W s.2) (outbounds.execution.receive limit)

variable {outbounds : Outbounds ε ω}

theorem Outbounds.Keeps.registered (keeps : outbounds.Keeps W) {granted : List Nat}
    {object object' : ε} {world world' : ω}
    {result : Except IoError Unit}
    (registered : outbounds.execution.registerReadiness granted (object, world) =
      (result, (object', world')))
    (start : W world) : W world' := by
  have kept := keeps.registers granted (object, world) start
  rwa [registered] at kept

namespace DatagramRouteSet

theorem openRoute_keeps (keeps : outbounds.Keeps W) (endpoint : Endpoint) :
    Run.Preserves (fun s : Egress ε ω => W s.world)
      (openRoute outbounds.execution outbounds.openDatagram endpoint) := by
  intro s result s' opened start
  cases openRoute_cases opened with
  | full many => exact start
  | notOpened refused => exact keeps.opens endpoint _ _ _ refused start
  | noTokens made refused => exact keeps.opens endpoint _ _ _ made start
  | notRegistered made allocated refused =>
      have next := keeps.opens endpoint _ _ _ made start
      exact keeps.registered refused next
  | opened made allocated registered =>
      have next := keeps.opens endpoint _ _ _ made start
      exact keeps.registered registered next

theorem sendWith_keeps (keeps : outbounds.Keeps W) (endpoint : Endpoint)
    (target : Target) (payload : Bytes) :
    Run.Preserves (fun s : Egress ε ω => W s.world)
      (sendWith outbounds.execution outbounds.openDatagram endpoint target payload) := by
  have send : Run.Preserves (fun s : Egress ε ω => W s.world)
      (sendRoute outbounds.execution endpoint target payload) := by
    intro s result s' sent start
    cases sendRoute_cases sent with
    | noRoute missing => exact start
    | sent found handed => exact keeps.sends target payload _ _ _ handed start
  refine Run.Preserves.bind ?_ fun _ => send
  intro s result s' opened
  exact (openRoute_keeps keeps endpoint).when s result s' opened

theorem receiveReady_keeps (keeps : outbounds.Keeps W) (token limit : Nat) :
    Run.Preserves (fun s : DatagramRouteSet ε × ω => W s.2)
      (receiveReady outbounds.execution token limit) := by
  intro s result s' received start
  cases receiveReady_cases received with
  | noOwner unowned => exact start
  | received owner taken => exact keeps.receives limit _ _ _ taken start

end DatagramRouteSet

/-! ### The SOCKS5 executor -/

namespace Socks5Udp

structure Env.Keeps (env : Env ω) (W : ω → Prop) : Prop where
  now : ∀ {world}, W world → W (env.now world).2
  nextFlowId : ∀ {world}, W world → W (env.nextFlowId world).2
  controlRead : ∀ limit {world}, W world → W (env.controlRead limit world).2
  sendTo : ∀ packet client {world}, W world → W (env.sendTo packet client world).2
  reregister : ∀ interest {world}, W world → W (env.reregister interest world).2

variable {env : Env ω}

theorem touch_keeps (keeps : env.Keeps W) :
    Run.Preserves (fun s : Association ε ω => W s.world) (touch env) := by
  intro s result s' h start
  cases h
  exact keeps.now start

theorem handleUdpClientPacket_keeps (keeps : env.Keeps W)
    (kept : outbounds.Keeps W) (runtime : Runtime)
    (packet : Bytes) :
    Run.Preserves (fun s : Association ε ω => W s.world)
      (handleUdpClientPacket env runtime outbounds packet) := by
  intro s result s' handled start
  have planned := keeps.nextFlowId start
  cases handleUdpClientPacket_cases env runtime outbounds handled with
  | malformed parsed => exact start
  | unplanned parsed selected => exact planned
  | routed parsed selected sending =>
      exact DatagramRouteSet.sendWith_keeps kept _ _ _ _ _ _ sending planned

theorem accept_keeps (keeps : env.Keeps W) (source : SocketAddr) :
    Run.Preserves (fun s : Association ε ω => W s.world) (accept env source) :=
  Run.Preserves.bind (.modify fun _ start => start) fun _ => touch_keeps keeps

theorem reply_keeps (keeps : env.Keeps W) (received : ReceivedDatagram) :
    Run.Preserves (fun s : Association ε ω => W s.world) (reply env received) := by
  intro s result s' h start
  unfold reply at h
  split at h
  · cases h
    exact start
  rename_i client known
  split at h
  · cases h
    exact start
  rename_i response encoded
  refine Run.Preserves.bind ?_ (fun sent => (touch_keeps keeps).when) s result s' h start
  intro s result s' h start
  have next := keeps.sendTo response client start
  unfold sendOrQueueClientReply at h
  split at h
  · rename_i answer
    rw [answer] at next
    cases h
    exact next
  · rename_i answer
    rw [answer] at next
    split at h
    · split at h
      · cases h
        exact next
      · cases h
        exact next
    · cases h
      exact next

theorem flushPendingClientReplies_keeps (keeps : env.Keeps W) (rounds : Nat) :
    Run.Preserves (fun s : Association ε ω => W s.world)
      (flushPendingClientReplies env rounds) := by
  intro s result s' h start
  obtain ⟨out, looped, rfl⟩ := Run.of_zoom h
  have round :
      Run.Preserves (fun t : Association ε ω × Bool => W t.1.world)
          (Run.loop rounds (flushRound env)) := by
    refine .loop fun t start => ?_
    unfold flushRound
    split
    · exact start
    rename_i packet client rest pending
    have next := keeps.sendTo packet client start
    split
    · rename_i answer
      rw [answer] at next
      exact next
    · rename_i answer
      rw [answer] at next
      split
      · exact next
      split
      · exact next
      · exact next
  exact round (s, false) result out looped start

theorem updateRelayInterest_keeps (keeps : env.Keeps W) :
    Run.Preserves (fun s : Association ε ω => W s.world) (updateRelayInterest env) := by
  intro s result s' h start
  unfold updateRelayInterest at h
  dsimp only at h
  split at h
  · have next := keeps.reregister ⟨true, !s.pendingReplies.isEmpty⟩ start
    split at h
    · rename_i answer
      rw [answer] at next
      cases h
      exact next
    · rename_i answer
      rw [answer] at next
      cases h
      exact next
  · cases h
    exact start

theorem receiveOutbound_keeps (kept : outbounds.Keeps W) (token : Nat) :
    Run.Preserves (fun s : Association ε ω => W s.world) (receiveOutbound outbounds token) := by
  intro s result s' h start
  obtain ⟨out, got, rfl⟩ := Run.of_zoom h
  exact DatagramRouteSet.receiveReady_keeps kept token _ _ _ _ got start

/-- Behind the client's packets every part of the loop keeps what the calls on the outside keep. -/
theorem proceed_keeps (keeps : env.Keeps W) (kept : outbounds.Keeps W)
    (runtime : Runtime) (controlIp : IpAddr)
    (rounds : Nat) {point : Point} (polled : point ≠ .top)
    (served : ∀ burst tokens writable, point ≠ .client (burst + 1) tokens writable) :
    Run.Preserves (fun s : Association ε ω => W s.world)
      (proceed env runtime outbounds controlIp rounds point) := by
  match point with
  | .top => exact absurd rfl polled
  | .client 0 tokens writable => exact .pure _
  | .client (burst + 1) tokens writable => exact absurd rfl (served burst tokens writable)
  | .outbound [] _ _ => exact .pure _
  | .outbound (_ :: tokens) 0 _ => exact .pure _
  | .outbound (token :: tokens) (burst + 1) writable =>
      refine Run.Preserves.bind (receiveOutbound_keeps kept token) fun received => ?_
      cases received with
      | none => exact .pure _
      | some received => exact .bind (reply_keeps keeps received) fun _ => .pure _
  | .replies writable =>
      have interest : Run.Preserves (fun s : Association ε ω => W s.world)
          (do updateRelayInterest env; pure Point.top) :=
        .bind (updateRelayInterest_keeps keeps) fun _ => .pure _
      rw [proceed]
      cases writable with
      | false => exact interest
      | true =>
          refine Run.Preserves.bind (flushPendingClientReplies_keeps keeps rounds) fun sent => ?_
          exact .bind (touch_keeps keeps).when fun _ => interest
  | .returned result => exact .pure _

end Socks5Udp

/-! ### The transparent executor -/

namespace TransparentUdp

structure Env.Keeps (env : Env ω) (W : ω → Prop) : Prop where
  now : ∀ {world}, W world → W (env.now world).2
  nextFlowId : ∀ {world}, W world → W (env.nextFlowId world).2
  bind : ∀ address {world}, W world → W (env.bindTransparentReplySocket address world).2
  sendTo : ∀ source payload client {world}, W world →
    W (env.replySendTo source payload client world).2

variable {env : Env ω}

theorem cleanupIdleClients_world (now : Nat) (s : Listener ε ω) :
    (cleanupIdleClients now s).world = s.world := by
  refine cleanupIdleClients_induction (P := fun s' => s'.world = s.world)
    (fun s' client state found same => ?_) now rfl
  unfold dropClient
  rw [found]
  exact same

theorem instant_keeps (keeps : env.Keeps W) :
    Run.Preserves (fun s : Listener ε ω => W s.world) (instant env) := by
  intro s result s' h start
  cases h
  exact keeps.now start

theorem cleanup_keeps (now : Nat) :
    Run.Preserves (fun s : Listener ε ω => W s.world) (Run.modify (cleanupIdleClients now)) := by
  refine .modify fun s start => ?_
  rw [cleanupIdleClients_world]
  exact start

theorem insertClient_keeps (keeps : env.Keeps W) (client : SocketAddr) :
    Run.Preserves (fun s : Listener ε ω => W s.world) (insertClient env client) := by
  refine (instant_keeps keeps).bind fun now => (cleanup_keeps now).bind fun _ => ?_
  intro s result s' h start
  dsimp only at h
  split at h
  · cases h
    exact start
  · cases h
    exact keeps.now start

theorem touch_keeps (keeps : env.Keeps W) (client : SocketAddr) :
    Run.Preserves (fun s : Listener ε ω => W s.world) (touch env client) := by
  intro s result s' h start
  unfold touch at h
  split at h
  · cases h
    exact start
  · cases h
    exact keeps.now start

theorem sendInbound_keeps (kept : outbounds.Keeps W) (inserted : Bool) (client : SocketAddr)
    (endpoint : Endpoint)
    (target : Target) (payload : Bytes) :
    Run.Preserves (fun s : Listener ε ω => W s.world)
      (sendInbound outbounds inserted client endpoint target payload) := by
  intro s result s' h start
  cases sendInbound_ends outbounds h with
  | noClient absent => exact start
  | accepted found sending =>
      rw [rememberTokens_world]
      exact DatagramRouteSet.sendWith_keeps kept _ _ _ _ _ _ sending start
  | removed new found sending =>
      exact DatagramRouteSet.sendWith_keeps kept _ _ _ _ _ _ sending start
  | remains known found sending =>
      exact DatagramRouteSet.sendWith_keeps kept _ _ _ _ _ _ sending start

theorem handleInbound_keeps (keeps : env.Keeps W) (kept : outbounds.Keeps W) (runtime : Runtime)
    (received : ReceivedTransparentDatagram) :
    Run.Preserves (fun s : Listener ε ω => W s.world)
      (handleInbound env runtime outbounds received) := by
  intro s result s' handled start
  have planned := keeps.nextFlowId start
  cases handleInbound_ends env runtime outbounds handled with
  | unplanned selected => exact planned
  | known selected found sent => exact sendInbound_keeps kept _ _ _ _ _ _ _ _ sent planned
  | full selected absent inserts => exact insertClient_keeps keeps _ _ _ _ inserts planned
  | entered selected absent inserts sent =>
      have room := insertClient_keeps keeps _ _ _ _ inserts planned
      exact sendInbound_keeps kept _ _ _ _ _ _ _ _ sent room

theorem sendReply_keeps (keeps : env.Keeps W) (source : Target)
    (client : SocketAddr) (payload : Bytes) :
    Run.Preserves (fun s : Listener ε ω => W s.world) (sendReply env source client payload) := by
  intro s result s' h start
  unfold sendReply at h
  split at h
  · cases h
    exact start
  rename_i address _
  split at h
  · cases h
    exact start
  refine Run.Preserves.bind (I := fun s : Listener ε ω => W s.world) (Run.Preserves.when ?_)
    (fun _ => ?_) s result s'
    h start
  · refine (instant_keeps keeps).bind fun now =>
      Run.Preserves.bind (.modify fun s start => start) fun _ => ?_
    intro s result s' h start
    have next := keeps.bind address start
    dsimp only at h
    split at h
    · rename_i answer
      rw [answer] at next
      cases h
      exact next
    · rename_i answer
      rw [answer] at next
      cases h
      exact keeps.now next
  · intro s result s' h start
    have next := keeps.sendTo address payload client start
    dsimp only at h
    split at h
    · rename_i answer
      rw [answer] at next
      cases h
      exact next
    · rename_i answer
      rw [answer] at next
      split at h
      · cases h
        exact next
      · cases h
        exact keeps.now next

theorem answer_keeps (keeps : env.Keeps W) (token : Nat) (client : SocketAddr)
    (ready : List (Nat × SocketAddr))
    (burst : Nat) (received : Option ReceivedDatagram) :
    Run.Preserves (fun s : Listener ε ω => W s.world)
      (answer env token client ready burst received) := by
  cases received with
  | none => exact .pure _
  | some received =>
      refine Run.Preserves.bind ?_ fun sent => (touch_keeps keeps client).when.bind fun _ => .pure _
      intro s result s' h start
      obtain ⟨result', sent, -⟩ := Run.of_succeeds h
      exact sendReply_keeps keeps _ _ _ s result' s' sent start

/-- Behind the clients' datagrams every part of the loop keeps what the calls on the outside
keep. -/
theorem proceed_keeps (keeps : env.Keeps W) (kept : outbounds.Keeps W)
    (runtime : Runtime) {point : Point}
    (polled : point ≠ .top) (served : ∀ burst events, point ≠ .inbound (burst + 1) events) :
    Run.Preserves (fun s : Listener ε ω => W s.world) (proceed env runtime outbounds point) := by
  match point with
  | .top => exact absurd rfl polled
  | .inbound 0 events =>
      intro s result s' h start
      cases h
      exact start
  | .inbound (burst + 1) events => exact absurd rfl (served burst events)
  | .outbound [] _ => exact .pure _
  | .outbound (_ :: ready) 0 => exact .pure _
  | .outbound ((token, client) :: ready) (burst + 1) =>
      intro s result s' h start
      match found : s.clients.lookup client with
      | none =>
          rw [proceed] at h
          dsimp only at h
          rw [found] at h
          cases h
          exact start
      | some state =>
          rw [proceed_receive env runtime outbounds found] at h
          refine Run.Preserves.bind ?_
            (fun received => answer_keeps keeps token client ready burst received) s _ _ h
            start
          intro s result s' h start
          obtain ⟨out, got, rfl⟩ := Run.of_zoom h
          exact DatagramRouteSet.receiveReady_keeps kept token _ _ _ _ got start
  | .returned result => exact .pure _

end TransparentUdp

end Commeatus.Daemon
