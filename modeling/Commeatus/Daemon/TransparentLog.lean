import Commeatus.Daemon.DatagramRecord

/-!
The log of a run of the transparent listener.

It holds the readings of the clock and the calls that bear on lifetimes, in
order: waits, messages of clients, datagrams that a route took, reply sockets
that were bound, and replies that went out whole.
-/

namespace Commeatus.Daemon.TransparentUdp

open Commeatus.Lib Commeatus.Core

variable {ε ω : Type}

/-! ### The log -/

/-- A reading of the clock; a wait; a message of a client; a datagram that its route took; a reply
socket that was bound; a reply that went out whole. -/
inductive Moment where
  | reading (now : Nat)
  | waits (timeout : Option Nat)
  | received (client : SocketAddr)
  | handed
  | bound (source : SocketAddr)
  | replied (source client : SocketAddr)

def Moment.clock : Moment → Option Nat
  | .reading now => some now
  | _ => none

def readings (moments : List Moment) : List Nat := moments.filterMap Moment.clock

@[simp] theorem readings_append (moments moments' : List Moment) :
    readings (moments ++ moments') = readings moments ++ readings moments' := List.filterMap_append

theorem mem_readings {moments : List Moment} {now : Nat} : now ∈ readings moments ↔
    .reading now ∈ moments := by
  unfold readings
  rw [List.mem_filterMap]
  constructor
  · rintro ⟨moment, member, read⟩
    cases moment <;> cases read
    exact member
  · intro member
    exact ⟨_, member, rfl⟩

/-- The sender of a message, if the read gave one. -/
def senders : Except RecvError Message → List Moment
  | .ok message => (message.address.map Moment.received).toList
  | .error _ => []

def boundTo (source : SocketAddr) : Except IoError Unit → List Moment
  | .ok () => [.bound source]
  | .error _ => []

def wholeReply (source client : SocketAddr) (payload : Bytes) : Except IoError Nat → List Moment
  | .ok sent => if sent = payload.length then [.replied source client] else []
  | .error _ => []

def taken : Except IoError Unit → List Moment
  | .ok () => [.handed]
  | .error _ => []

/-- The same outside, with the log beside it. -/
abbrev Env.timed (env : Env ω) : Env (ω × List Moment) :=
  env.recorded
    { read := fun now log => log ++ [.reading now]
      polled := fun timeout log => log ++ [.waits timeout]
      arrived := fun answer log => log ++ senders answer
      bound := fun source answer log => log ++ boundTo source answer
      replied :=
        fun source payload client answer log => log ++ wholeReply source client payload answer }

theorem Env.timed_bind {env : Env ω} {source : SocketAddr} {s s' : ω × List Moment}
    {result : Except IoError Unit}
    (answer : env.timed.bindTransparentReplySocket source s = (result, s')) :
    s'.2 = s.2 ++ boundTo source result :=
  (IoM.of_noted answer).2

theorem Env.timed_reply {env : Env ω} {source client : SocketAddr} {payload : Bytes}
    {s s' : ω × List Moment}
    {result : Except IoError Nat}
    (answer : env.timed.replySendTo source payload client s = (result, s')) :
    s'.2 = s.2 ++ wholeReply source client payload result :=
  (IoM.of_noted answer).2

theorem Env.timed_recvmsg {env : Env ω} {limit : Nat} {s s' : ω × List Moment}
    {result : Except RecvError Message} (answer : env.timed.recvmsg limit s = (result, s')) :
    s'.2 = s.2 ++ senders result :=
  (recvmsg_recorded answer).2

theorem Env.timed_poll {env : Env ω} {timeout : Option Nat} {s s' : ω × List Moment}
    {result : Except IoError (List PollEvent)} (answer : env.timed.poll timeout s = (result, s')) :
    s'.2 = s.2 ++ [.waits timeout] := by
  cases answer
  rfl

@[simp] theorem Env.timed_now (env : Env ω) (s : ω × List Moment) :
    env.timed.now s = ((env.now s.1).1, ((env.now s.1).2, s.2 ++ [.reading (env.now s.1).1])) := rfl

/-- The same outbounds, with the datagrams that a route takes in the log. -/
abbrev timedOutbounds (outbounds : Outbounds ε ω) : Outbounds ε (ω × List Moment) :=
  outbounds.recorded { sent := fun _ _ _ result log => log ++ taken result }

abbrev Timed (ε ω : Type) : Type := Listener ε (ω × List Moment)

variable {outbounds : Outbounds ε ω}

open DatagramRouteSet

/-- A datagram is in the log when its send has succeeded, and only then. -/
theorem sendWith_log {endpoint : Endpoint} {target : Target} {payload : Bytes}
    {s s' : Egress ε (ω × List Moment)}
    {result : Except IoError Unit}
    (sent : sendWith (timedOutbounds outbounds).execution (timedOutbounds outbounds).openDatagram
      endpoint target payload s = some (result, s')) : s'.world.2 = s.world.2 ++ taken result := by
  rcases sendWith_recorded (fun _ _ => rfl) sent with ⟨same, e, rfl⟩ | ⟨_, log⟩
  · exact same.trans (List.append_nil _).symm
  · exact log

theorem receiveReady_log {token limit : Nat} {s s' : DatagramRouteSet ε × (ω × List Moment)}
    {result : Except IoError (Option ReceivedDatagram)}
    (received : receiveReady (timedOutbounds outbounds).execution token limit s =
      some (result, s')) :
    s'.2.2 = s.2.2 :=
  receiveReady_recorded (fun _ => rfl) received

variable {env : Env ω}

theorem Message.datagram_client {message : Message} {received : ReceivedTransparentDatagram}
    (made : message.datagram = .ok received) : message.address = some received.client := by
  unfold datagram at made
  split at made
  · cases made
  split at made
  · cases made
  rename_i client address
  split at made
  · cases made
  split at made
  · cases made
  split at made
  · cases made
  · cases made
    exact address

/-- The sender of a datagram is in the log; of another message it may be. -/
theorem recvOriginalDatagram_log {s s' : ω × List Moment}
    {result : Except IoError (Option ReceivedTransparentDatagram)}
    (read : recvOriginalDatagram env.timed s = (result, s')) :
    ∃ new, s'.2 = s.2 ++ new ∧ .handed ∉ new ∧ (∀ source client, .replied source client ∉ new) ∧
      ∀ received, result = .ok (some received) → new = [.received received.client] := by
  have only : ∀ (message : Message) (moment : Moment), moment ∈ senders (.ok message) →
      ∃ client, moment = .received client := by
    intro message moment member
    obtain ⟨client, -, same⟩ := Option.map_eq_some_iff.mp (Option.mem_toList.mp member)
    exact ⟨client, same.symm⟩
  cases recvOriginalDatagram_cases env.timed read with
  | again answer => exact ⟨_, Env.timed_recvmsg answer, nofun, nofun, nofun⟩
  | interrupted answer => exact ⟨_, Env.timed_recvmsg answer, nofun, nofun, nofun⟩
  | failed answer => exact ⟨_, Env.timed_recvmsg answer, nofun, nofun, nofun⟩
  | invalid answer checked =>
      refine ⟨_, Env.timed_recvmsg answer, fun member => ?_, fun source client member => ?_, nofun⟩
      · obtain ⟨client, no⟩ := only _ _ member
        cases no
      · obtain ⟨client', no⟩ := only _ _ member
        cases no
  | received answer checked =>
      refine ⟨_, Env.timed_recvmsg answer, fun member => ?_, fun source client member => ?_, ?_⟩
      · obtain ⟨client, no⟩ := only _ _ member
        cases no
      · obtain ⟨client', no⟩ := only _ _ member
        cases no
      · rintro received ⟨⟩
        rw [senders, Message.datagram_client checked]
        rfl
/-! ### Replies -/

/-- The cache of reply sockets with room for one more. -/
def makeRoom (now : Nat) (sockets : Map SocketAddr Nat) : Map SocketAddr Nat :=
  let sockets := cleanupExpired now sockets
  if maxReplySockets ≤ sockets.size then
    match oldest sockets with
    | none => sockets
    | some source => sockets.erase source
  else sockets

/-- How the opening of a reply socket ends. -/
inductive SocketOpening (env : Env ω) (source : SocketAddr) (s : Listener ε ω) :
    Except IoError Unit → Listener ε ω → Prop where
  | failed {e : IoError} {world : ω}
      (answer : env.bindTransparentReplySocket source (env.now s.world).2 = (.error e, world)) :
      SocketOpening env source s (.error e)
        { s with replySockets := makeRoom (env.now s.world).1 s.replySockets, world := world }
  | bound {world : ω} (answer : env.bindTransparentReplySocket source (env.now s.world).2 =
      (.ok (), world)) :
      SocketOpening env source s (.ok ())
        { s with
          replySockets :=
            (makeRoom (env.now s.world).1 s.replySockets).insert source (env.now world).1
          world := (env.now world).2 }

theorem openReplySocket_cases {source : SocketAddr} {s s' : Listener ε ω}
    {result : Except IoError Unit}
    (opened : openReplySocket env source s = some (result, s')) :
    SocketOpening env source s result s' := by
  rcases Run.bind_eq_some opened with ⟨now, s₁, clock, rest⟩ | ⟨e, clock, -⟩
  · cases clock
    rcases Run.bind_eq_some rest with ⟨_, s₂, room, last⟩ | ⟨e, room, -⟩
    · cases room
      dsimp only at last
      split at last
      · rename_i answer
        cases last
        exact .failed answer
      · rename_i answer
        cases last
        exact .bound answer
    · cases room
  · cases clock

/-- The socket for a reply is there or has been opened. -/
inductive SocketFor (env : Env ω) (source : SocketAddr) (s : Listener ε ω) :
    Listener ε ω → Prop where
  | known (there : (s.replySockets.lookup source).isSome) : SocketFor env source s s
  | opened {s' : Listener ε ω} (absent : s.replySockets.lookup source = none)
      (opening : SocketOpening env source s (.ok ()) s') : SocketFor env source s s'

/-- How `ReplySocketCache::send` ends. -/
inductive Replying (env : Env ω) (source : Target) (client : SocketAddr)
    (payload : Bytes) (s : Listener ε ω) :
    Except IoError Unit → Listener ε ω → Prop where
  | refused (e : IoError) : Replying env source client payload s (.error e) s
  | notBound {address : SocketAddr} {e : IoError} {s' : Listener ε ω}
      (toAddress : targetSocketAddr source = .ok address)
      (absent : s.replySockets.lookup address = none)
        (opening : SocketOpening env address s (.error e) s') :
      Replying env source client payload s (.error e) s'
  | notSent {address : SocketAddr} {e : IoError} {s₁ : Listener ε ω} {world : ω}
      (toAddress : targetSocketAddr source = .ok address) (socket : SocketFor env address s s₁)
      (answer : env.replySendTo address payload client s₁.world = (.error e, world)) :
      Replying env source client payload s (.error e) { s₁ with world }
  | short {address : SocketAddr} {sent : Nat} {s₁ : Listener ε ω} {world : ω}
      (toAddress : targetSocketAddr source = .ok address) (socket : SocketFor env address s s₁)
      (answer : env.replySendTo address payload client s₁.world = (.ok sent, world))
        (less : sent ≠ payload.length) :
      Replying env source client payload s
        (.error ⟨.writeZero, "transparent UDP reply reported a partial datagram send"⟩)
          { s₁ with world }
  | whole {address : SocketAddr} {s₁ : Listener ε ω} {world : ω}
      (toAddress : targetSocketAddr source = .ok address) (socket : SocketFor env address s s₁)
      (answer : env.replySendTo address payload client s₁.world = (.ok payload.length, world)) :
      Replying env source client payload s (.ok ())
        { s₁ with
          replySockets := s₁.replySockets.insert address (env.now world).1
          world := (env.now world).2 }

theorem sendReply_cases {source : Target} {client : SocketAddr} {payload : Bytes}
    {s s' : Listener ε ω}
    {result : Except IoError Unit}
    (sent : sendReply env source client payload s = some (result, s')) :
    Replying env source client payload s result s' := by
  unfold sendReply at sent
  split at sent
  · cases sent
    exact .refused _
  rename_i address toAddress
  split at sent
  · cases sent
    exact .refused _
  rcases Run.bind_eq_some sent with ⟨_, s₁, first, last⟩ | ⟨e, first, rfl⟩
  · have socket : SocketFor env address s s₁ := by
      cases found : s.replySockets.lookup address with
      | some used =>
          rw [found] at first
          cases first
          exact .known (by rw [found]; rfl)
      | none =>
          rw [found] at first
          exact .opened found (openReplySocket_cases first)
    split at last
    · rename_i answer
      cases last
      exact .notSent toAddress socket answer
    · rename_i answer
      split at last
      · rename_i less
        cases last
        exact .short toAddress socket answer less
      · rename_i all
        cases last
        rw [not_not.mp all] at answer
        exact .whole toAddress socket answer
  · cases found : s.replySockets.lookup address with
    | some used =>
        rw [found] at first
        cases first
    | none =>
        rw [found] at first
        exact .notBound toAddress found (openReplySocket_cases first)

theorem SocketOpening.log {source : SocketAddr} {s s' : Timed ε ω} {result : Except IoError Unit}
    (opening : SocketOpening env.timed source s result s') :
    s'.clients = s.clients ∧ ∃ new, s'.world.2 = s.world.2 ++ new ∧
      ∀ moment ∈ new, (∃ now, moment = .reading now) ∨ moment = .bound source := by
  cases opening with
  | @failed e world answer =>
      refine ⟨rfl, [.reading (env.now s.world.1).1], ?_, by simp⟩
      simp [Env.timed_bind answer, boundTo]
  | @bound world answer =>
      refine ⟨rfl, [.reading (env.now s.world.1).1, .bound source, .reading (env.now world.1).1],
        ?_, by simp⟩
      simp [Env.timed_bind answer, boundTo]

theorem SocketFor.log {source : SocketAddr} {s s' : Timed ε ω}
    (socket : SocketFor env.timed source s s') :
    s'.clients = s.clients ∧ ∃ new, s'.world.2 = s.world.2 ++ new ∧
      ∀ moment ∈ new, (∃ now, moment = .reading now) ∨ moment = .bound source := by
  cases socket with
  | known there => exact ⟨rfl, [], (List.append_nil _).symm, nofun⟩
  | opened absent opening => exact opening.log

/-- What a reply puts into the log: it says that the reply went out whole, if it did. -/
structure Replied (client : SocketAddr) (result : Except IoError Unit) (new : List Moment)
    (s s' : Timed ε ω) : Prop where
  log : s'.world.2 = s.world.2 ++ new
  clients : s'.clients = s.clients
  only : ∀ moment ∈ new, (∃ now, moment = .reading now) ∨ (∃ source, moment = .bound source) ∨
    ∃ source, moment = .replied source client
  replied : (∃ source, .replied source client ∈ new) ↔ result = .ok ()

theorem Replying.log {source : Target} {client : SocketAddr} {payload : Bytes} {s s' : Timed ε ω}
    {result : Except IoError Unit}
    (replying : Replying env.timed source client payload s result s') :
    ∃ new, Replied client result new s s' := by
  have unsent : ∀ {new : List Moment} {address : SocketAddr},
      (∀ moment ∈ new, (∃ now, moment = .reading now) ∨ moment = .bound address) →
        ¬∃ source, .replied source client ∈ new := by
    rintro new address only ⟨source, member⟩
    rcases only _ member with ⟨now, no⟩ | no
    · cases no
    · cases no
  have weaker : ∀ {new : List Moment} {address : SocketAddr},
      (∀ moment ∈ new, (∃ now, moment = .reading now) ∨ moment = .bound address) →
        ∀ moment ∈ new, (∃ now, moment = .reading now) ∨ (∃ source, moment = .bound source) ∨
          ∃ source, moment = .replied source client :=
    fun only moment member => (only moment member).imp_right fun bound => .inl ⟨_, bound⟩
  cases replying with
  | refused e => exact ⟨[], (List.append_nil _).symm, rfl, nofun, by simp⟩
  | notBound toAddress absent opening =>
      obtain ⟨clients, new, log, only⟩ := opening.log
      exact ⟨new, log, clients, weaker only, by simp [unsent only]⟩
  | notSent toAddress socket answer =>
      obtain ⟨clients, new, log, only⟩ := socket.log
      refine ⟨new, ?_, clients, weaker only, by simp [unsent only]⟩
      simp [Env.timed_reply answer, wholeReply, log]
  | short toAddress socket answer less =>
      obtain ⟨clients, new, log, only⟩ := socket.log
      refine ⟨new, ?_, clients, weaker only, by simp [unsent only]⟩
      simp [Env.timed_reply answer, wholeReply, less, log]
  | @whole address s₁ world toAddress socket answer =>
      obtain ⟨clients, new, log, only⟩ := socket.log
      refine ⟨new ++ [.replied address client, .reading (env.now world.1).1], ?_, clients, ?_, ?_⟩
      · simp [Env.timed_reply answer, wholeReply, log]
      · intro moment member
        rcases List.mem_append.mp member with before | last
        · exact weaker only moment before
        · rcases List.mem_pair.mp last with rfl | rfl
          · exact .inr (.inr ⟨_, rfl⟩)
          · exact .inl ⟨_, rfl⟩
      · exact ⟨fun _ => rfl, fun _ => ⟨address, by simp⟩⟩
end Commeatus.Daemon.TransparentUdp
