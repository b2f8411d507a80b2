import Commeatus.Daemon.Socks5UdpReplies

/-!
The readiness of the relay socket of a SOCKS5 UDP association.

The poll says once that the relay socket is writable: when it becomes so after a
refusal, or when it is so at a registration. Before each poll the loop is
registered for that event exactly if replies wait, and the event is still to
come: since the last one a reply has been refused, or the socket has been
registered anew.
-/

namespace Commeatus.Daemon.Socks5Udp

open Commeatus.Lib Commeatus.Core

variable {ε ω : Type} {env : Env ω} {runtime : Runtime} {outbounds : Outbounds ε ω}

/-! ### What the poll owes -/

/-- The interest that the relay socket is registered with, and whether the poll owes an event for
writability. -/
structure Arming where
  interest : Interest := ⟨true, false⟩
  due : Bool := false

/-- A registration for writability is owed an event, and so is a refusal under such a registration.
The event that comes is owed no longer. -/
def Arming.next (arming : Arming) : Post → Arming
  | .registered interest => ⟨interest, interest.writable⟩
  | .offered _ _ (.error e) =>
      if e.kind = .wouldBlock then { arming with due := arming.interest.writable } else arming
  | .woken true => { arming with due := false }
  | _ => arming

def arming (log : List Post) : Arming := log.foldl Arming.next {}

@[simp] theorem arming_append (log : List Post) (post : Post) :
    arming (log ++ [post]) = (arming log).next post := by
  rw [arming, List.foldl_append]
  rfl

/-- An offer leaves the interest alone, and what is owed stays owed. -/
theorem Arming.next_offered (arming : Arming) (packet : Bytes) (client : SocketAddr)
    (answer : Except IoError Nat) :
    (arming.next (.offered packet client answer)).interest = arming.interest ∧
      (arming.interest.writable = true → arming.due = true →
        (arming.next (.offered packet client answer)).due = true) := by
  cases answer with
  | ok sent => exact ⟨rfl, fun _ due => due⟩
  | error e =>
      by_cases blocks : e.kind = .wouldBlock
      · simp only [next, blocks]
        exact ⟨rfl, fun writable _ => writable⟩
      · simp [next, blocks]

theorem Arming.next_blocked (arming : Arming) (packet : Bytes) (client : SocketAddr) {e : IoError}
    (blocks : e.kind = .wouldBlock) :
    (arming.next (.offered packet client (.error e))).due =
      (arming.next (.offered packet client (.error e))).interest.writable := by
  simp [next, blocks]

/-- The socket is registered as the loop takes it to be, and the event for writability is owed,
unless it is spent: it may have come in the batch at hand. -/
structure Watched (spent : Bool) (s : Posted ε ω) : Prop where
  interest : (arming s.world.2).interest = ⟨true, s.relayWritable⟩
  due : spent = false → s.relayWritable = true → (arming s.world.2).due = true

variable {spent : Bool} {s s' : Posted ε ω}

theorem Watched.same (watched : Watched spent s) (log : s'.world.2 = s.world.2)
    (writable : s'.relayWritable = s.relayWritable) : Watched spent s' := by
  constructor
  · rw [log, writable]
    exact watched.interest
  · rw [log, writable]
    exact watched.due

theorem Watched.spend (watched : Watched spent s) : Watched true s := ⟨watched.interest, by simp⟩

theorem Watched.received (watched : Watched spent s) {datagram : ReceivedDatagram}
    (log : s'.world.2 = s.world.2 ++ [.received datagram])
    (writable : s'.relayWritable = s.relayWritable) :
    Watched spent s' := by
  constructor
  · rw [log, arming_append, writable]
    exact watched.interest
  · rw [log, arming_append, writable]
    exact watched.due

theorem Watched.offered (watched : Watched spent s) {packet : Bytes} {client : SocketAddr}
    {answer : Except IoError Nat}
    (log : s'.world.2 = s.world.2 ++ [.offered packet client answer])
    (writable : s'.relayWritable = s.relayWritable) :
    Watched spent s' := by
  obtain ⟨interest, due⟩ := (arming s.world.2).next_offered packet client answer
  constructor
  · rw [log, arming_append, interest, writable]
    exact watched.interest
  · intro unspent wants
    rw [writable] at wants
    rw [log, arming_append]
    exact due ((congrArg Interest.writable watched.interest).trans wants)
      (watched.due unspent wants)

/-- A batch that says that the socket is writable spends the event. -/
theorem Watched.woken (watched : Watched false s) {told : Bool}
    (log : s'.world.2 = s.world.2 ++ [.woken told])
    (writable : s'.relayWritable = s.relayWritable) : Watched told s' := by
  cases told with
  | true =>
      refine ⟨?_, by simp⟩
      rw [log, arming_append, writable]
      exact watched.interest
  | false =>
      constructor
      · rw [log, arming_append, writable]
        exact watched.interest
      · rw [log, arming_append, writable]
        exact watched.due

theorem Watched.registered
    (log : s'.world.2 = s.world.2 ++ [.registered ⟨true, s'.relayWritable⟩]) :
    Watched spent s' := by
  constructor
  · rw [log, arming_append]
    rfl
  · intro _ wants
    rw [log, arming_append]
    exact wants

/-! ### Parts of a step -/

theorem flushRound_watched (s : Posted ε ω × Bool) (watched : Watched true s.1) :
    Watched true (flushRound env.posted s).2.1 := by
  unfold flushRound
  split
  · exact watched
  split
  · rename_i answer
    exact watched.offered (Env.posted_sendTo answer) rfl
  · rename_i answer
    split
    · exact watched.offered (Env.posted_sendTo answer) rfl
    split
    · exact watched.offered (Env.posted_sendTo answer) rfl
    · exact watched.offered (Env.posted_sendTo answer) rfl

/-- The flush ends when no reply waits or the socket has refused the one at the front, so that what
waits is owed an event. -/
theorem flush_watched {rounds : Nat} {result : Except IoError Bool}
    (flushed : flushPendingClientReplies env.posted rounds s = some (result, s'))
    (watched : Watched true s) :
    Watched s'.pendingReplies.isEmpty s' := by
  obtain ⟨out, looped, rfl⟩ := Run.of_zoom flushed
  have kept : Watched true out.1 :=
    Run.Preserves.loop (I := fun s : Posted ε ω × Bool => Watched true s.1) flushRound_watched
      _ _ _ looped watched
  obtain ⟨last, done⟩ := Run.loop_returns looped
  refine ⟨kept.interest, fun waits wants => ?_⟩
  unfold flushRound at done
  split at done
  · rename_i empty
    cases done
    rw [empty] at waits
    cases waits
  split at done
  · cases done
  rename_i e world answer
  split at done
  · rename_i blocks
    cases done
    have owed : (arming world.2).due = (arming world.2).interest.writable := by
      rw [Env.posted_sendTo answer, arming_append]
      exact Arming.next_blocked _ _ _ blocks
    exact owed.trans ((congrArg Interest.writable kept.interest).trans wants)
  split at done
  · cases done
  · cases done

/-- The interest follows the queue, and what waits stays owed an event. -/
theorem updateRelayInterest_watched {result : Except IoError Unit}
    (updated : updateRelayInterest env.posted s = some (result, s'))
    (watched : Watched s.pendingReplies.isEmpty s) :
    (∀ e, result = .error e → Watched true s') ∧
      (result = .ok () → Watched false s' ∧ s'.relayWritable = !s'.pendingReplies.isEmpty) := by
  obtain ⟨pending, ⟨e, rfl, log, same⟩ | ⟨rfl, follows, ⟨same, log⟩ | log⟩⟩ :=
    updateRelayInterest_registers updated
  · exact ⟨fun _ _ => (watched.same log same).spend, by simp⟩
  · refine ⟨by simp, fun _ => ⟨?_, by rw [pending]; exact follows⟩⟩
    have kept := watched.same log same
    refine ⟨kept.interest, fun _ wants => kept.due ?_ wants⟩
    rw [wants] at follows
    simpa using follows
  · exact ⟨by simp, fun _ => ⟨.registered log, by rw [pending]; exact follows⟩⟩

/-! ### Steps -/

/-- Whether the batch at hand has said that the relay socket is writable; where none is at hand it
has not. -/
def Point.told : Point → Bool
  | .top => false
  | .client _ _ writable => writable
  | .outbound _ _ writable => writable
  | .replies writable => writable
  | .returned _ => true

def toldBy : Except IoError Point → Bool
  | .ok point => point.told
  | .error _ => true

/-- What holds wherever the loop stands: before a poll, the socket is registered for writability
exactly if replies wait. -/
structure Ready (result : Except IoError Point) (s : Posted ε ω) : Prop where
  watched : Watched (toldBy result) s
  settled : result = .ok .top → s.relayWritable = !s.pendingReplies.isEmpty

/-- Inside a batch. -/
theorem Ready.within {writable : Bool} {result : Except IoError Point}
    (watched : Watched writable s)
    (next : ∀ point, result = .ok point → point.told = writable ∧ point ≠ .top) :
      Ready result s := by
  cases result with
  | error e => exact ⟨watched.spend, by simp⟩
  | ok point =>
      obtain ⟨same, inside⟩ := next point rfl
      refine ⟨?_, fun top => absurd (Except.ok.inj top) inside⟩
      rw [toldBy, same]
      exact watched

theorem pollEvents_ready {result : Except IoError Point}
    (polled : pollEvents env.posted s = some (result, s'))
    (ready : Ready (.ok .top) s) : Ready result s' := by
  have fields := pollEvents_fields polled
  have pending : s'.pendingReplies = s.pendingReplies := by rw [fields]
  have same : s'.relayWritable = s.relayWritable := by rw [fields]
  cases pollEvents_polled polled with
  | interrupted log =>
      refine ⟨ready.watched.same log same, fun _ => ?_⟩
      rw [same, pending]
      exact ready.settled rfl
  | woken burst outbound writable log => exact ⟨ready.watched.woken log same, by simp⟩
  | ended ends log =>
      have kept : Watched true s' := by
        rcases log with log | ⟨writable, log⟩
        · exact (ready.watched.same log same).spend
        · exact (ready.watched.woken log same).spend
      refine .within kept fun point is => ?_
      obtain ⟨final, rfl⟩ := ends point is
      exact ⟨rfl, by simp⟩

theorem Turn.ready {token burst : Nat} {tokens : List Nat} {writable : Bool}
    {result : Except IoError Point}
    (turn : Turn token tokens burst writable s result s') (watched : Watched writable s) :
    Ready result s' := by
  cases turn with
  | nothing quiet next =>
      refine .within (watched.same quiet.log quiet.writable) fun point is => ?_
      rw [next point is]
      exact ⟨rfl, by simp⟩
  | @received datagram s₁ _ outcome log pending same client replying =>
      have received := watched.received log same
      have kept : Watched writable s' := by
        cases replying with
        | unknown nobody => exact received
        | unencodable known refused => exact received
        | offered known encoded offers =>
            obtain ⟨answer, offered, -⟩ := offers.offered
            exact received.offered offered offers.writable
      refine .within kept fun point is => ?_
      cases outcome with
      | error e => cases is
      | ok done =>
          cases is
          exact ⟨rfl, by simp⟩

theorem replies_ready {controlIp : IpAddr} {rounds : Nat} {writable : Bool}
    {result : Except IoError Point}
    (proceeded : proceed env.posted runtime (postedOutbounds outbounds) controlIp rounds
      (.replies writable) s =
      some (result, s')) (watched : Watched writable s) : Ready result s' := by
  have last : ∀ {t : Posted ε ω}, Watched t.pendingReplies.isEmpty t →
      (do updateRelayInterest env.posted; pure Point.top) t = some (result, s') →
          Ready result s' := by
    intro t watched updates
    rcases Run.bind_eq_some updates with ⟨_, t', updated, rest⟩ | ⟨e, updated, rfl⟩
    · cases rest
      obtain ⟨kept, follows⟩ := (updateRelayInterest_watched updated watched).2 rfl
      exact ⟨kept, fun _ => follows⟩
    · exact ⟨(updateRelayInterest_watched updated watched).1 e rfl, by simp⟩
  cases writable with
  | false => exact last ⟨watched.interest, fun _ => watched.due rfl⟩ proceeded
  | true =>
      rcases Run.bind_eq_some proceeded with ⟨sent, s₁, flushed, rest⟩ | ⟨e, flushed, rfl⟩
      · have kept := flush_watched flushed watched
        cases sent with
        | false => exact last kept rest
        | true =>
            rcases Run.bind_eq_some rest with ⟨_, s₂, touched, updates⟩ | ⟨e, touched, -⟩
            · have same : Watched s₂.pendingReplies.isEmpty s₂ := by
                cases touched
                exact kept.same rfl rfl
              exact last same updates
            · cases touched
      · exact ⟨(flush_watched flushed watched).spend, by simp⟩

theorem step_ready {controlIp : IpAddr} {rounds : Nat} {point point' : Point}
    (ready : Ready (.ok point) s)
    (stepped : step env.posted runtime (postedOutbounds outbounds) controlIp rounds point s =
      some (point', s')) :
    Ready (.ok point') s' := by
  have body : ∀ {result : Except IoError Point},
      proceed env.posted runtime (postedOutbounds outbounds) controlIp rounds point s =
        some (result, s') →
        Ready result s' := by
    intro result proceeded
    match point with
    | .top => exact pollEvents_ready proceeded ready
    | .client 0 outbound writable =>
        cases proceeded
        exact ⟨ready.watched, by simp⟩
    | .client (burst + 1) outbound writable =>
        obtain ⟨quiet, next⟩ := receiveClient_same proceeded
        refine .within (ready.watched.same quiet.log quiet.writable) fun point is => ?_
        rcases next point is with rfl | rfl
        · exact ⟨rfl, by simp⟩
        · exact ⟨rfl, by simp⟩
    | .outbound [] burst writable =>
        cases proceeded
        exact ⟨ready.watched, by simp⟩
    | .outbound (token :: tokens) 0 writable =>
        cases proceeded
        exact ⟨ready.watched, by simp⟩
    | .outbound (token :: tokens) (burst + 1) writable =>
        exact (outbound_turn proceeded).ready ready.watched
    | .replies writable => exact replies_ready proceeded ready.watched
    | .returned final =>
        cases proceeded
        exact ready
  rcases step_cases env.posted runtime (postedOutbounds outbounds)
    stepped with proceeded | ⟨e, rfl, proceeded⟩
  · exact body proceeded
  · exact ⟨(body proceeded).watched, by simp⟩

variable (env) (runtime) (outbounds)

theorem ready_of_reaches {controlIp : IpAddr} {hint : Socks5.UdpClientHint} {world : ω}
    {point : Point} {s : Posted ε ω}
    (reached : Reaches env.posted runtime (postedOutbounds outbounds) (fun _ _ => True) controlIp
      (established env.posted controlIp hint (world, [])) point s) : Ready (.ok point) s := by
  refine reached.invariant _ _ _ (I := fun point s => Ready (.ok point) s) ?_ ?_
  · refine ⟨⟨rfl, fun _ no => ?_⟩, fun _ => rfl⟩
    cases no
  · intro rounds point s point' s' ready _ stepped
    exact step_ready ready stepped

/-- Queued replies are not forgotten. Before every poll the relay socket is registered for
writability exactly if replies wait, and then the poll owes the event: since the last one the socket
has refused a reply or has been registered anew. -/
theorem waiting_replies_are_announced {controlIp : IpAddr} {hint : Socks5.UdpClientHint}
    {world : ω} {s : Posted ε ω}
    (reached : Reaches env.posted runtime (postedOutbounds outbounds) (fun _ _ => True) controlIp
      (established env.posted controlIp hint (world, [])) .top s) :
    (arming s.world.2).interest = ⟨true, !s.pendingReplies.isEmpty⟩ ∧
      (s.pendingReplies ≠ [] → (arming s.world.2).due = true) := by
  have ready := ready_of_reaches env runtime outbounds reached
  have settled := ready.settled rfl
  refine ⟨?_, fun waiting => ready.watched.due rfl ?_⟩
  · rw [← settled]
    exact ready.watched.interest
  · rw [settled]
    simpa using waiting

/-- Whether the loop is before its poll with 32 replies in the queue. -/
def crowdedAtPoll (out : Point × Posted (Opened Unit Unit) Bool) : Bool :=
  match out.1 with
  | .top => out.2.pendingReplies.length == 32
  | _ => false

theorem waiting_replies_are_announced_example :
    ∃ s : Posted (Opened Unit Unit) Bool,
      Reaches blocked.posted proxied (postedOutbounds replying) (fun _ _ => True)
        (.v4 ⟨10, 0, 0, 1⟩)
        (established blocked.posted (.v4 ⟨10, 0, 0, 1⟩) {} (true, [])) .top s ∧
      s.pendingReplies.length = 32 ∧ (arming s.world.2).due = true := by
  have run : (steps blocked.posted proxied (postedOutbounds replying) (.v4 ⟨10, 0, 0, 1⟩) 0 42
      (.top, established blocked.posted (.v4 ⟨10, 0, 0, 1⟩) {} (true, []))).any
          crowdedAtPoll = true := by
    decide +kernel
  obtain ⟨⟨point, s⟩, stepped, test⟩ := (Option.any_eq_true _ _).mp run
  unfold crowdedAtPoll at test
  cases point with
  | top =>
      have crowded : s.pendingReplies.length = 32 := beq_iff_eq.mp test
      have reached := Reaches.steps _ _ _ .start stepped
      refine ⟨s, reached, crowded,
        (waiting_replies_are_announced blocked proxied replying reached).2 fun empty => ?_⟩
      rw [empty] at crowded
      cases crowded
  | client burst tokens writable => cases test
  | outbound tokens burst writable => cases test
  | replies writable => cases test
  | returned result => cases test

end Commeatus.Daemon.Socks5Udp
