import Commeatus.Daemon.DatagramFrame

/-!
Records of what the datagram executors do.

A record stands beside the world, and a recorder says what each call adds to
it. There is one recorder for the calls on the outbounds and one for the calls
of each executor on its outside; what they do not mention leaves the record
alone.
-/

namespace Commeatus.Daemon

open Commeatus.Lib Commeatus.Core

variable {ε ω μ : Type}

/-! ### Outbounds -/

/-- What the calls on an execution object add: a registration of tokens, and what a send and a
receive come to. -/
structure Recorder (ε μ : Type) where
  registered : List Nat → μ → μ := fun _ record => record
  sent : ε → Target → Bytes → Except IoError Unit → μ → μ := fun _ _ _ _ record => record
  received : Except IoError (Option ReceivedDatagram) → μ → μ := fun _ record => record

/-- The same outbounds, with a record beside the world. -/
def Outbounds.recorded (outbounds : Outbounds ε ω) (recorder : Recorder ε μ) :
    Outbounds ε (ω × μ) where
  capabilities := outbounds.capabilities
  openDatagram endpoint :=
    Run.zoom Prod.fst (fun world s => (world, s.2)) (outbounds.openDatagram endpoint)
  execution :=
    { readinessSourceCount := outbounds.execution.readinessSourceCount
      registerReadiness tokens := fun s =>
        let out := outbounds.execution.registerReadiness tokens (s.1, s.2.1)
        (out.1, (out.2.1, (out.2.2, recorder.registered tokens s.2.2)))
      send target payload := fun s =>
        (outbounds.execution.send target payload (s.1, s.2.1)).map fun out =>
          (out.1, (out.2.1, (out.2.2, recorder.sent s.1 target payload out.1 s.2.2)))
      receive limit := fun s =>
        (outbounds.execution.receive limit (s.1, s.2.1)).map fun out =>
          (out.1, (out.2.1, (out.2.2, recorder.received out.1 s.2.2))) }

variable {outbounds : Outbounds ε ω} {recorder : Recorder ε μ}

theorem openDatagram_recorded {endpoint : Endpoint} {s s' : ω × μ} {result : Except IoError ε}
    (opened : (outbounds.recorded recorder).openDatagram endpoint s = some (result, s')) :
    outbounds.openDatagram endpoint s.1 = some (result, s'.1) ∧ s'.2 = s.2 := by
  dsimp only [Outbounds.recorded] at opened
  obtain ⟨world, inner, rfl⟩ := Run.of_zoom opened
  exact ⟨inner, rfl⟩

theorem registerReadiness_recorded {granted : List Nat} {object object' : ε} {world world' : ω × μ}
    {result : Except IoError Unit}
    (registered : (outbounds.recorded recorder).execution.registerReadiness
      granted (object, world) =
      (result, (object', world'))) :
    outbounds.execution.registerReadiness granted (object, world.1) =
      (result, (object', world'.1)) ∧
      world'.2 = recorder.registered granted world.2 := by
  cases registered
  exact ⟨rfl, rfl⟩

theorem send_recorded {target : Target} {payload : Bytes} {object object' : ε}
    {world world' : ω × μ}
    {result : Except IoError Unit}
    (sent : (outbounds.recorded recorder).execution.send target payload (object, world) =
      some (result, (object', world'))) :
    outbounds.execution.send target payload (object, world.1) = some (result, (object', world'.1)) ∧
      world'.2 = recorder.sent object target payload result world.2 := by
  obtain ⟨out, inner, same⟩ := Option.map_eq_some_iff.mp sent
  cases same
  exact ⟨inner, rfl⟩

theorem receive_recorded {limit : Nat} {object object' : ε} {world world' : ω × μ}
    {result : Except IoError (Option ReceivedDatagram)}
    (received : (outbounds.recorded recorder).execution.receive limit (object, world) =
      some (result, (object', world'))) :
    outbounds.execution.receive limit (object, world.1) = some (result, (object', world'.1)) ∧
      world'.2 = recorder.received result world.2 := by
  obtain ⟨out, inner, same⟩ := Option.map_eq_some_iff.mp received
  cases same
  exact ⟨inner, rfl⟩

/-- What every entry preserves holds of the record at all times. -/
theorem Outbounds.recorded_keeps {W : μ → Prop}
    (registered : ∀ tokens record, W record → W (recorder.registered tokens record))
    (sent : ∀ object target payload result record, W record →
      W (recorder.sent object target payload result record))
    (received : ∀ result record, W record → W (recorder.received result record)) :
    (outbounds.recorded recorder).Keeps fun world => W world.2 := by
  constructor
  · intro endpoint s result s' opened start
    rw [(openDatagram_recorded opened).2]
    exact start
  · exact fun tokens s start => registered tokens _ start
  · rintro target payload ⟨object, world⟩ result ⟨object', world'⟩ sending start
    dsimp only
    rw [(send_recorded sending).2]
    exact sent _ _ _ _ _ start
  · rintro limit ⟨object, world⟩ result ⟨object', world'⟩ receiving start
    dsimp only
    rw [(receive_recorded receiving).2]
    exact received _ _ start

namespace DatagramRouteSet

/-- Where registrations are not recorded, opening a route leaves the record alone. -/
theorem openRoute_recorded (silent : ∀ tokens record, recorder.registered tokens record = record)
    {endpoint : Endpoint} {s s' : Egress ε (ω × μ)} {result : Except IoError Unit}
    (opened : openRoute (outbounds.recorded recorder).execution
      (outbounds.recorded recorder).openDatagram endpoint s = some (result, s')) :
    s'.world.2 = s.world.2 := by
  have registers : ∀ {granted : List Nat} {object object' : ε} {world world' : ω × μ}
      {result : Except IoError Unit},
      (outbounds.recorded recorder).execution.registerReadiness granted (object, world) =
        (result, (object', world')) → world'.2 = world.2 :=
    fun registered => (registerReadiness_recorded registered).2.trans (silent _ _)
  cases openRoute_cases opened with
  | full many => rfl
  | notOpened refused => exact (openDatagram_recorded refused).2
  | noTokens made refused => exact (openDatagram_recorded made).2
  | notRegistered made allocated refused =>
      exact (registers refused).trans (openDatagram_recorded made).2
  | opened made allocated registered =>
      exact (registers registered).trans (openDatagram_recorded made).2

/-- A datagram that is sent through its route adds what its send comes to, and one without a route
adds nothing. -/
theorem sendWith_recorded (silent : ∀ tokens record, recorder.registered tokens record = record)
    {endpoint : Endpoint} {target : Target} {payload : Bytes} {s s' : Egress ε (ω × μ)}
    {result : Except IoError Unit}
    (sending : sendWith (outbounds.recorded recorder).execution
      (outbounds.recorded recorder).openDatagram endpoint target payload s = some (result, s')) :
    (s'.world.2 = s.world.2 ∧ ∃ e, result = .error e) ∨
      ∃ object, s'.world.2 = recorder.sent object target payload result s.world.2 := by
  have opening : ∀ {s₁ : Egress ε (ω × μ)} {result₁ : Except IoError Unit},
      Run.when (s.routes.get endpoint).isNone (openRoute (outbounds.recorded recorder).execution
        (outbounds.recorded recorder).openDatagram endpoint) s = some (result₁, s₁) →
        s₁.world.2 = s.world.2 := by
    intro s₁ result₁ opened
    unfold Run.when at opened
    split at opened
    · exact openRoute_recorded silent opened
    · cases opened
      rfl
  rcases Run.bind_eq_some sending with ⟨_, s₁, first, last⟩ | ⟨e, first, rfl⟩
  · rw [← opening first]
    cases sendRoute_cases last with
    | noRoute missing => exact .inl ⟨rfl, _, rfl⟩
    | sent found handed => exact .inr ⟨_, (send_recorded handed).2⟩
  · exact .inl ⟨opening first, e, rfl⟩

/-- A receive that no route owns gives nothing, and another one is in the record. -/
theorem receiveReady_recorded (traceless : ∀ record, recorder.received (.ok none) record = record)
    {token limit : Nat} {s s' : DatagramRouteSet ε × (ω × μ)}
    {result : Except IoError (Option ReceivedDatagram)}
    (receiving : receiveReady (outbounds.recorded recorder).execution token limit s =
      some (result, s')) :
    s'.2.2 = recorder.received result s.2.2 := by
  cases receiveReady_cases receiving with
  | noOwner unowned => exact (traceless _).symm
  | received owner taken => exact (receive_recorded taken).2

end DatagramRouteSet

/-! ### The outside of the SOCKS5 executor -/

namespace Socks5Udp

/-- What the calls of an association on its outside add. -/
structure Recorder (μ : Type) where
  polled : Except IoError (List PollEvent) → μ → μ := fun _ record => record
  arrived : Except IoError (Bytes × SocketAddr) → μ → μ := fun _ record => record
  replied : Bytes → SocketAddr → Except IoError Nat → μ → μ := fun _ _ _ record => record
  reregistered : Interest → Except IoError Unit → μ → μ := fun _ _ record => record

/-- The same outside, with a record beside it. -/
def Env.recorded (env : Env ω) (recorder : Recorder μ) : Env (ω × μ) where
  now s := ((env.now s.1).1, ((env.now s.1).2, s.2))
  nextFlowId s := ((env.nextFlowId s.1).1, ((env.nextFlowId s.1).2, s.2))
  poll timeout := (env.poll timeout).noted recorder.polled
  controlRead limit := (env.controlRead limit).beside
  recvFrom limit := (env.recvFrom limit).noted recorder.arrived
  sendTo packet client := (env.sendTo packet client).noted (recorder.replied packet client)
  reregister interest := (env.reregister interest).noted (recorder.reregistered interest)

end Socks5Udp

/-! ### The outside of the transparent listener -/

namespace TransparentUdp

/-- What the calls of a listener on its outside add. -/
structure Recorder (μ : Type) where
  read : Nat → μ → μ := fun _ record => record
  polled : Option Nat → μ → μ := fun _ record => record
  arrived : Except RecvError Message → μ → μ := fun _ record => record
  bound : SocketAddr → Except IoError Unit → μ → μ := fun _ _ record => record
  replied : SocketAddr → Bytes → SocketAddr → Except IoError Nat → μ → μ :=
    fun _ _ _ _ record => record

/-- The same outside, with a record beside it. -/
def Env.recorded (env : Env ω) (recorder : Recorder μ) : Env (ω × μ) where
  now s := ((env.now s.1).1, ((env.now s.1).2, recorder.read (env.now s.1).1 s.2))
  nextFlowId s := ((env.nextFlowId s.1).1, ((env.nextFlowId s.1).2, s.2))
  poll timeout := (env.poll timeout).noted fun _ => recorder.polled timeout
  recvmsg limit s :=
    let out := env.recvmsg limit s.1
    (out.1, (out.2, recorder.arrived out.1 s.2))
  bindTransparentReplySocket source :=
    (env.bindTransparentReplySocket source).noted (recorder.bound source)
  replySendTo source payload client :=
    (env.replySendTo source payload client).noted (recorder.replied source payload client)

theorem recvmsg_recorded {env : Env ω} {recorder : Recorder μ} {limit : Nat} {s s' : ω × μ}
    {result : Except RecvError Message}
    (answer : (env.recorded recorder).recvmsg limit s = (result, s')) :
    env.recvmsg limit s.1 = (result, s'.1) ∧ s'.2 = recorder.arrived result s.2 := by
  cases answer
  exact ⟨rfl, rfl⟩

end TransparentUdp

end Commeatus.Daemon
