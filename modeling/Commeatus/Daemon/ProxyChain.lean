import Commeatus.Lib.Dialogue
import Commeatus.Daemon.Handlers

/-!
A daemon behind another one: the handshake of an outbound against the handler of
an inbound.

The first daemon performs the handshake on the connection to its proxy, which is
the client connection of the second one. What the second daemon does for the
request, it does elsewhere.
-/

namespace Commeatus.Daemon

open Commeatus.Lib Commeatus.Core Commeatus.Dns
open Handler Monitor Dialogue

variable {η η' : Type}

/-- What the actions of a handler do on the connection of the given side. -/
def wiring (side : Side) : Wiring (HandlerAct η) HandlerAns where
  role action :=
    match side, action with
    | .client, .readExact .client count => .receive count .ok .error
    | .client, .read .client (more + 1) => .poll (more + 1) .ok .error
    | .client, .writeAll .client bytes => .send bytes (.ok ()) .error
    | .remote, .readExact .remote count => .receive count .ok .error
    | .remote, .writeAll .remote bytes => .send bytes (.ok ()) .error
    | .remote, .flush .remote => .send [] (.ok ()) .error
    | _, _ => .off
  answers action := by
    cases action with
    | flowId => exact ⟨(0 : FlowId)⟩
    | now => exact ⟨(0 : Nat)⟩
    | resolve => exact ⟨(.ok [] : Resolved)⟩
    | _ => exact ⟨Except.error ByteStream.unexpectedEof⟩
  positive action limit ok failed role := by
    split at role
    case h_2 =>
      cases role
      exact Nat.succ_pos _
    all_goals cases role

/-! ### Actions elsewhere -/

/-- Neither on the connection to the client, nor the relay. -/
def Elsewhere (action : HandlerAct η) : Prop :=
  (wiring .client).role action = .off ∧ action ≠ .relay

/-- The program leaves the client alone. -/
def StaysElsewhere {α : Type} (p : Handler η α) : Prop :=
  (only Elsewhere).Obeys p () fun _ _ => True

namespace StaysElsewhere

variable {α β : Type} {p : Handler η α}

theorem bind {f : α → Handler η β} (first : StaysElsewhere p) (next : ∀ a, StaysElsewhere (f a)) :
    StaysElsewhere (p >>= f) := by
  apply Obeys.andThen
  apply first.mono
  intro result m _
  cases result with
  | ok a => exact next a
  | error e => trivial

theorem pure (a : α) : StaysElsewhere (Pure.pure a : Handler η α) := trivial

theorem fail (e : IoError) : StaysElsewhere (Attempt.fail e : Handler η α) := trivial

theorem lift (result : Except IoError α) :
    StaysElsewhere (Attempt.lift result : Handler η α) := trivial

theorem caught (first : StaysElsewhere p) : StaysElsewhere p.caught := by
  apply Obeys.andThen
  apply first.mono
  intro result m _
  trivial

theorem configure (side : Side) (option : SocketOption) :
    StaysElsewhere (configure side option : Handler η Unit) :=
  ⟨⟨rfl, by simp⟩, fun _ _ => trivial⟩

theorem readExact (count : Nat) : StaysElsewhere (readExact .remote count : Handler η Bytes) :=
  ⟨⟨rfl, by simp⟩, fun _ _ => trivial⟩

theorem writeAll (bytes : Bytes) : StaysElsewhere (writeAll .remote bytes : Handler η Unit) :=
  ⟨⟨rfl, by simp⟩, fun _ _ => trivial⟩

theorem flush : StaysElsewhere (flush .remote : Handler η Unit) :=
  ⟨⟨rfl, by simp⟩, fun _ _ => trivial⟩

theorem now : StaysElsewhere (now : Handler η Nat) := ⟨⟨rfl, by simp⟩, fun _ _ => trivial⟩

theorem dial (address : ScopedAddr) (timeout : Nat) :
    StaysElsewhere (dial address timeout : Handler η Unit) :=
  ⟨⟨rfl, by simp⟩, fun _ _ => trivial⟩

theorem secure (serverName : η) : StaysElsewhere (secure serverName : Handler η Bool) :=
  ⟨⟨rfl, by simp⟩, fun _ _ => trivial⟩

end StaysElsewhere

theorem staysElsewhere_boundClient : StaysElsewhere (boundClient : Handler η Unit) :=
  (StaysElsewhere.configure _ _).bind fun _ => .configure _ _

theorem staysElsewhere_unboundClient : StaysElsewhere (unboundClient : Handler η Unit) :=
  (StaysElsewhere.configure _ _).bind fun _ => .configure _ _

theorem staysElsewhere_candidatesOf (target : Target) :
    StaysElsewhere (candidatesOf target : Handler η (List ScopedAddr)) := by
  unfold candidatesOf resolveTarget
  cases target.host with
  | ip ip => trivial
  | domain name => exact ⟨⟨rfl, by simp⟩, fun _ _ => trivial⟩

theorem staysElsewhere_connectAny (deadline : Nat) (addresses : List ScopedAddr)
    (lastError : Option IoError) :
    StaysElsewhere (connectAny deadline addresses lastError : Handler η Unit) := by
  induction addresses generalizing lastError with
  | nil => exact .fail _
  | cons address addresses ih =>
    apply StaysElsewhere.bind .now
    intro instant
    dsimp only
    split
    · exact .fail _
    · apply StaysElsewhere.bind (.caught (.dial _ _))
      intro result
      cases result with
      | ok => exact .configure _ _
      | error e => exact ih _

theorem staysElsewhere_connectDirect (target : Target) :
    StaysElsewhere (connectDirect target : Handler η Unit) := by
  apply (staysElsewhere_candidatesOf target).bind
  intro addresses
  exact StaysElsewhere.now.bind fun start => staysElsewhere_connectAny _ _ _

theorem staysElsewhere_connectCarrier (address : ScopedAddr) :
    StaysElsewhere (connectCarrier address : Handler η Unit) :=
  (StaysElsewhere.dial _ _).bind fun _ => (StaysElsewhere.configure _ _).bind fun _ =>
    (StaysElsewhere.configure _ _).bind fun _ => .configure _ _

theorem staysElsewhere_transport (config : TransportConfig η) : StaysElsewhere config.connect := by
  cases config with
  | tcp address => exact staysElsewhere_connectCarrier address
  | tls transport =>
    apply (staysElsewhere_connectCarrier _).bind
    intro _
    apply (StaysElsewhere.secure _).bind
    intro handshaking
    cases handshaking with
    | true => exact .fail _
    | false => exact .pure _

theorem staysElsewhere_discardSocksAddress (addressType : UInt8) :
    StaysElsewhere (Socks5Protocol.Remote.discardSocksAddress addressType : Handler η Unit) := by
  unfold Socks5Protocol.Remote.discardSocksAddress
  split
  · exact (StaysElsewhere.readExact _).bind fun _ => .pure _
  split
  · exact (StaysElsewhere.readExact _).bind fun _ =>
      (StaysElsewhere.readExact _).bind fun _ => .pure _
  split
  · exact (StaysElsewhere.readExact _).bind fun _ => .pure _
  · exact .fail _

theorem staysElsewhere_socks5 (target : Target) :
    StaysElsewhere (Socks5Protocol.Remote.handshakeStream target : Handler η Unit) := by
  apply (StaysElsewhere.writeAll _).bind
  intro _
  apply StaysElsewhere.flush.bind
  intro _
  apply (StaysElsewhere.readExact _).bind
  intro method
  split
  · exact .fail _
  apply (StaysElsewhere.lift _).bind
  intro request
  apply (StaysElsewhere.writeAll _).bind
  intro _
  apply StaysElsewhere.flush.bind
  intro _
  apply (StaysElsewhere.readExact _).bind
  intro reply
  split
  · exact .fail _
  split
  · exact .fail _
  · apply (staysElsewhere_discardSocksAddress _).bind
    intro _
    exact (StaysElsewhere.readExact _).bind fun _ => .pure _

theorem staysElsewhere_readHttpResponseHead (remaining : Nat) (head : Bytes) :
    StaysElsewhere (Protocol.Remote.readHttpResponseHead remaining head : Handler η Bytes) := by
  induction remaining generalizing head with
  | zero =>
    unfold Protocol.Remote.readHttpResponseHead
    split
    · exact .pure _
    · exact .fail _
  | succ remaining ih =>
    unfold Protocol.Remote.readHttpResponseHead
    split
    · exact .pure _
    · exact (StaysElsewhere.readExact _).bind fun _ => ih _

theorem staysElsewhere_writePieces (pieces : List Str) :
    StaysElsewhere (Protocol.Remote.writePieces pieces : Handler η Unit) := by
  induction pieces with
  | nil => exact .pure _
  | cons piece pieces ih => exact (StaysElsewhere.writeAll _).bind fun _ => ih

theorem staysElsewhere_handshake (protocol : OutboundProtocol) (target : Target) :
    StaysElsewhere (protocol.handshakeStream target : Handler η Unit) := by
  cases protocol with
  | socks5 => exact staysElsewhere_socks5 target
  | httpConnect =>
    apply (staysElsewhere_writePieces _).bind
    intro _
    apply StaysElsewhere.flush.bind
    intro _
    exact (staysElsewhere_readHttpResponseHead _ _).bind fun _ => .lift _
  | trojan verifier =>
    apply (StaysElsewhere.lift _).bind
    intro request
    exact (StaysElsewhere.writeAll _).bind fun _ => .flush

/-- Opening an outbound leaves the client alone. -/
theorem staysElsewhere_connectTcp (registry : Registry η) (endpoint : Endpoint) (target : Target) :
    StaysElsewhere (registry.connectTcp endpoint target) := by
  unfold Registry.connectTcp
  split
  · exact .fail _
  cases endpoint with
  | direct => exact staysElsewhere_connectDirect target
  | proxy id =>
    dsimp only
    split
    · exact .fail _
    · exact (staysElsewhere_transport _).bind fun _ => staysElsewhere_handshake _ _

/-! ### What the daemons agree on -/

section Agreement

variable (runtime : Runtime) (registry : Registry η') (target : Target)

/-- The second daemon has planned a route for the target and has opened it. -/
def Routed (log : List (HandlerEvent η')) : Prop :=
  ∃ id endpoint events, planAction runtime target .tcp id = .route endpoint ∧
    Prog.Path (registry.connectTcp endpoint target) events (.done (.ok ())) ∧ events <:+: log

inductive Refusal where
  | rejected (reason : RejectReason)
  | failed (e : IoError)

/-- Why the second daemon has refused the target. -/
inductive RouteRefused (log : List (HandlerEvent η')) : Refusal → Prop where
  | rejected {id : FlowId} {reason : RejectReason} (flow : ⟨.flowId, id⟩ ∈ log)
      (plan : planAction runtime target .tcp id = .reject reason) :
        RouteRefused log (.rejected reason)
  | failed {id : FlowId} {endpoint : Endpoint} {events : List (HandlerEvent η')} {e : IoError}
      (plan : planAction runtime target .tcp id = .route endpoint)
      (path : Prog.Path (registry.connectTcp endpoint target) events (.done (.error e)))
        (done : events <:+: log) :
      RouteRefused log (.failed e)

/-- No relay has been started. -/
def Calm (log : List (HandlerEvent η')) : Prop := ∀ event ∈ log, event.1 ≠ .relay

abbrev Chain (η η' : Type) : Type :=
  Dialogue (HandlerAct η) HandlerAns (Except IoError Unit) (HandlerAct η') HandlerAns
    (Except IoError Unit)

/-- How a handshake ends: with an opened route to the target and nothing left on the connection that
is not the tunnel's; with the reason for which the second daemon refuses the target; with the end of
the connection, because the second daemon has failed before it could say more; or with a fault of
the connection. -/
inductive Agreed (tells : Refusal → IoError) (d : Chain η η') : Prop where
  | opened (result : d.left.prog = .done (.ok ())) (drained : d.left.inbox = [] ∧
      d.right.inbox = [])
      (routed : Routed runtime registry target d.right.log)
  | refused {refusal : Refusal} (result : d.left.prog = .done (.error (tells refusal)))
      (refused : RouteRefused runtime registry target d.right.log refusal) (calm : Calm d.right.log)
  | abandoned (result : d.left.prog = .done (.error ByteStream.unexpectedEof)) {e : IoError}
      (failed : d.right.prog = .done (.error e)) (calm : Calm d.right.log)
  | broken {e : IoError} (result : d.left.prog = .done (.error e)) (broken : d.left.broken = true ∨
      d.right.broken = true)

end Agreement

theorem Routed.append {runtime : Runtime} {registry : Registry η'} {target : Target}
    {log : List (HandlerEvent η')}
    (routed : Routed runtime registry target log) (events : List (HandlerEvent η')) :
    Routed runtime registry target (log ++ events) := by
  obtain ⟨id, endpoint, opening, plan, path, inside⟩ := routed
  exact ⟨id, endpoint, opening, plan, path, inside.trans (List.prefix_append _ _).isInfix⟩

theorem RouteRefused.append {runtime : Runtime} {registry : Registry η'} {target : Target}
    {log : List (HandlerEvent η')}
    {refusal : Refusal} (refused : RouteRefused runtime registry target log refusal)
    (events : List (HandlerEvent η')) :
    RouteRefused runtime registry target (log ++ events) refusal := by
  cases refused with
  | rejected flow plan => exact .rejected (List.mem_append_left _ flow) plan
  | failed plan path inside =>
      exact .failed plan path (inside.trans (List.prefix_append _ _).isInfix)

theorem Calm.append {log events : List (HandlerEvent η')} (calm : Calm log) (calm' : Calm events) :
    Calm (log ++ events) := by
  intro event member
  rcases List.mem_append.mp member with earlier | later
  · exact calm event earlier
  · exact calm' event later

theorem Calm.snoc {log : List (HandlerEvent η')} {event : HandlerEvent η'} (calm : Calm log)
    (other : event.1 ≠ .relay) :
    Calm (log ++ [event]) :=
  calm.append (by simpa [Calm] using other)

theorem calm_of_elsewhere {events : List (HandlerEvent η')}
    (elsewhere : ∀ event ∈ events, Elsewhere event.1) : Calm events :=
  fun event member => (elsewhere event member).2

/-! ### Turns of a handler -/

section Turns

variable {side : Side} {Act : Type} {Ans : Act → Type} {α β γ : Type} {w' : Wiring Act Ans}
    {r : Party Act Ans γ}
  {post : Dialogue (HandlerAct η) HandlerAns (Except IoError β) Act Ans γ → Prop} {inbox : Bytes}
  {log : List (HandlerEvent η)}
  {broken : Bool}

theorem settles_readExact {count : Nat} {f : Bytes → Handler η β}
    (enough : count ≤ inbox.length ∨ r.Ended)
    (received : count ≤ inbox.length → Settles (wiring side) w' post
      ⟨⟨f (inbox.take count), inbox.drop count,
        log ++ [⟨.readExact side count, .ok (inbox.take count)⟩], broken⟩, r⟩)
    (ends : r.Ended → inbox.length < count → Settles (wiring side) w' post
      ⟨⟨.done (.error ByteStream.unexpectedEof), [],
        log ++ [⟨.readExact side count, .error ByteStream.unexpectedEof⟩], broken⟩, r⟩)
    (fails : ∀ e rest, Settles (wiring side) w' post
      ⟨⟨.done (.error e), rest, log ++ [⟨.readExact side count, .error e⟩], true⟩, r⟩) :
    Settles (wiring side) w' post
      ⟨⟨(readExact side count >>= f : Handler η β), inbox, log, broken⟩, r⟩ := by
  have role : (wiring side).role (HandlerAct.readExact side count : HandlerAct η) =
      .receive count .ok .error := by
    cases side <;> rfl
  apply Settles.left_receives rfl role enough <;>
    simp only [Party.goes, Bool.or_false, Bool.or_true]
  · exact received
  · exact ends
  · exact fun e lost => fails e (inbox.drop lost)

theorem settles_writeAll {bytes : Bytes} {f : Unit → Handler η β}
    (sent : Settles (wiring side) w' post
      ⟨⟨f (), inbox, log ++ [⟨.writeAll side bytes, .ok ()⟩], broken⟩, r.hears bytes⟩)
    (fails : ∀ e part, part <+: bytes → Settles (wiring side) w' post
      ⟨⟨.done (.error e), inbox, log ++ [⟨.writeAll side bytes, .error e⟩], true⟩, r.hears part⟩) :
    Settles (wiring side) w' post
      ⟨⟨(writeAll side bytes >>= f : Handler η β), inbox, log, broken⟩, r⟩ := by
  have role : (wiring side).role (HandlerAct.writeAll side bytes : HandlerAct η) =
      .send bytes (.ok ()) .error := by
    cases side <;> rfl
  apply Settles.left_sends rfl role <;> simp only [Party.goes, Bool.or_false, Bool.or_true]
  · exact sent
  · exact fails

theorem settles_flush {f : Unit → Handler η β}
    (sent : Settles (wiring .remote) w' post
      ⟨⟨f (), inbox, log ++ [⟨.flush .remote, .ok ()⟩], broken⟩, r⟩)
    (fails : ∀ e, Settles (wiring .remote) w' post
      ⟨⟨.done (.error e), inbox, log ++ [⟨.flush .remote, .error e⟩], true⟩, r⟩) :
    Settles (wiring .remote) w' post
      ⟨⟨(flush .remote >>= f : Handler η β), inbox, log, broken⟩, r⟩ := by
  apply Settles.left_sends rfl rfl <;>
    simp only [Party.goes, Bool.or_false, Bool.or_true, Party.hears_nil]
  · exact sent
  · intro e part some
    rw [List.prefix_nil.mp some, Party.hears_nil]
    exact fails e

theorem settles_elsewhere {p : Handler η α} {f : α → Handler η β} (stays : StaysElsewhere p)
    (onward : ∀ events result, Prog.Path p events (.done result) → Calm events →
      Settles (wiring .client) w' post
        ⟨⟨Attempt.follow f result, inbox, log ++ events, broken⟩, r⟩) :
    Settles (wiring .client) w' post ⟨⟨(p >>= f : Handler η β), inbox, log, broken⟩, r⟩ :=
  Settles.left_elsewhere (fun _ elsewhere => elsewhere.1) stays fun events result path elsewhere =>
    onward events result path (calm_of_elsewhere elsewhere)

end Turns

/-! ### The first daemon's side -/

section First

variable {runtime : Runtime} {registry : Registry η'} {target : Target} {tells : Refusal → IoError}
  {server : Party (HandlerAct η') HandlerAns (Except IoError Unit)} {inbox : Bytes}
  {log : List (HandlerEvent η)}

/-- A chain that settles in agreement. -/
abbrev Agrees (runtime : Runtime) (registry : Registry η') (target : Target)
    (tells : Refusal → IoError) : Chain η η' → Prop :=
  Settles (wiring .remote) (wiring .client) (Agreed runtime registry target tells)

/-- A chain that settles in agreement, seen from the second daemon. -/
abbrev AgreesBack (runtime : Runtime) (registry : Registry η') (target : Target)
    (tells : Refusal → IoError) : Chain η' η → Prop :=
  Settles (wiring .client) (wiring .remote) fun d => Agreed runtime registry target tells d.swap

theorem agrees_iff_back {client : Party (HandlerAct η) HandlerAns (Except IoError Unit)} :
    Agrees runtime registry target tells ⟨client, server⟩ ↔
    AgreesBack runtime registry target tells ⟨server, client⟩ :=
  ⟨Settles.swap, Settles.swap⟩

/-- A handshake that the connection has failed. -/
theorem agrees_broken (e : IoError) :
    Agrees runtime registry target tells ⟨⟨.done (.error e), inbox, log, true⟩, server⟩ := by
  rw [agrees_iff_back]
  apply Settles.left_alone ⟨_, rfl⟩
  intro server' client _ prog _ broken
  exact .broken prog (.inl broken)

/-- The second daemon has failed before it started its relay. -/
def Failed (server : Party (HandlerAct η') HandlerAns (Except IoError Unit)) : Prop :=
  (∃ e, server.prog = .done (.error e)) ∧ Calm server.log

theorem Failed.ended (failed : Failed server) : server.Ended := by
  obtain ⟨⟨e, done⟩, -⟩ := failed
  exact ⟨_, done⟩

theorem Failed.hears (failed : Failed server) (bytes : Bytes) :
    Failed (server.hears bytes) := failed

theorem agrees_abandoned {broken : Bool} (failed : Failed server) :
    Agrees runtime registry target tells
      ⟨⟨.done (.error ByteStream.unexpectedEof), inbox, log, broken⟩, server⟩ := by
  obtain ⟨⟨e, done⟩, calm⟩ := failed
  exact .ended ⟨⟨_, rfl⟩, ⟨_, done⟩⟩ (.abandoned rfl done calm)

/-- Whatever the client waits for will not come. -/
theorem agrees_starved {count : Nat} {f : Bytes → Handler η Unit} (failed : Failed server)
    (short : inbox.length < count) :
    Agrees runtime registry target tells
      ⟨⟨(readExact .remote count >>= f : Handler η Unit), inbox, log, false⟩, server⟩ := by
  apply settles_readExact (.inr failed.ended)
  · intro enough
    omega
  · exact fun _ _ => agrees_abandoned failed
  · exact fun e rest => agrees_broken e

end First

/-! ### The second daemon's side -/

/-- What an inbound does once it knows the flow of its target: `refuse` is what it says to a client
it has to refuse, and `accept` what it does when the route is open. -/
def answering (refuse : Refusal → Bytes) (accept : Handler η' Unit) (runtime : Runtime)
    (registry : Registry η') (target : Target)
    (id : FlowId) : Handler η' Unit :=
  match planAction runtime target .tcp id with
  | .reject reason => writeAll .client (refuse (.rejected reason))
  | .route endpoint =>
      Attempt.caught (registry.connectTcp endpoint target) >>= fun
        | .error e =>
            Attempt.caught (writeAll .client (refuse (.failed e))) >>= fun _ => Attempt.fail e
        | .ok () => accept

section Second

variable {runtime : Runtime} {registry : Registry η'} {target : Target} {tells : Refusal → IoError}
  {client : Party (HandlerAct η) HandlerAns (Except IoError Unit)}
  {log : List (HandlerEvent η')} {reply : Bytes}

/-- The second daemon has said this part of a reply, and has ended; if it is not the whole reply, it
has failed. -/
structure Said (reply part : Bytes)
    (server : Party (HandlerAct η') HandlerAns (Except IoError Unit)) : Prop where
  said : part <+: reply
  whole : part = reply ∨ Failed server
  ended : server.Ended

/-- The second daemon says that the route is open, and relays. -/
theorem agrees_accepting
    (told : ∀ part (server : Party (HandlerAct η') HandlerAns (Except IoError Unit)),
      Said reply part server → server.inbox = [] →
      Routed runtime registry target server.log →
      AgreesBack runtime registry target tells ⟨server, client.hears part⟩)
    (routed : Routed runtime registry target log) (calm : Calm log) :
    AgreesBack runtime registry target tells
      ⟨⟨(writeAll .client reply >>= fun _ => unboundClient >>= fun _ => relay : Handler η' Unit),
        [], log, false⟩, client⟩ := by
  apply settles_writeAll
  · have routed' := routed.append [⟨.writeAll .client reply, .ok ()⟩]
    apply settles_elsewhere staysElsewhere_unboundClient
    intro events result _ _
    cases result with
    | error e => exact told _ _ ⟨List.prefix_refl _, .inl rfl, ⟨_, rfl⟩⟩ rfl (routed'.append _)
    | ok =>
      apply Settles.left_off rfl rfl
      intro answer
      exact told _ _ ⟨List.prefix_refl _, .inl rfl, ⟨_, rfl⟩⟩ rfl ((routed'.append _).append _)
  · intro e part said
    exact told _ _ ⟨said, .inr ⟨⟨e, rfl⟩, calm.snoc (by simp)⟩, ⟨_, rfl⟩⟩ rfl (routed.append _)

/-- The second daemon plans the route, opens it, and answers. -/
theorem agrees_answering {refuse : Refusal → Bytes} {accept : Handler η' Unit}
    (told : ∀ refusal part (server : Party (HandlerAct η') HandlerAns (Except IoError Unit)),
      Said (refuse refusal) part server →
      RouteRefused runtime registry target server.log refusal → Calm server.log →
        AgreesBack runtime registry target tells ⟨server, client.hears part⟩)
    (accepted : ∀ log', Routed runtime registry target log' → Calm log' →
      AgreesBack runtime registry target tells ⟨⟨accept, [], log', false⟩, client⟩)
      (calm : Calm log) :
    AgreesBack runtime registry target tells
      ⟨⟨.act .flowId (answering refuse accept runtime registry target), [], log, false⟩,
        client⟩ := by
  apply Settles.left_off rfl rfl
  intro id
  simp only [Party.goes, Bool.or_false]
  have calm' : Calm (log ++ [⟨.flowId, id⟩]) := calm.snoc (by simp)
  unfold answering
  split
  · rename_i reason plan
    have refused :
        RouteRefused runtime registry target (log ++ [⟨.flowId, id⟩]) (.rejected reason) :=
      .rejected (by simp) plan
    apply Settles.left_sends rfl rfl <;> simp only [Party.goes, Bool.or_false, Bool.or_true]
    · apply told (.rejected reason) _ _ ⟨List.prefix_refl _, .inl rfl, ⟨_, rfl⟩⟩ (refused.append _)
      exact calm'.snoc (by simp)
    · intro e part said
      have calm'' :
          Calm (log ++ [⟨.flowId, id⟩] ++
              [⟨.writeAll .client (refuse (.rejected reason)), .error e⟩]) :=
        calm'.snoc (by simp)
      exact told _ _ _ ⟨said, .inr ⟨⟨e, rfl⟩, calm''⟩, ⟨_, rfl⟩⟩ (refused.append _) calm''
  · rename_i endpoint plan
    apply settles_elsewhere (staysElsewhere_connectTcp registry endpoint target).caught
    intro events result path calm''
    obtain ⟨outcome, rfl, opening⟩ := Attempt.path_caught path
    cases outcome with
    | ok =>
      apply accepted _ _ (calm'.append calm'')
      exact ⟨id, endpoint, events, plan, opening, (List.suffix_append _ _).isInfix⟩
    | error e =>
      have refused :
          RouteRefused runtime registry target (log ++ [⟨.flowId, id⟩] ++ events) (.failed e) :=
        .failed plan opening (List.suffix_append _ _).isInfix
      have calm' := calm'.append calm''
      apply Settles.left_sends rfl rfl <;> simp only [Party.goes, Bool.or_false, Bool.or_true]
      · have calm'' :
            Calm (log ++ [⟨.flowId, id⟩] ++ events ++
                [⟨.writeAll .client (refuse (.failed e)), .ok ()⟩]) :=
          calm'.snoc (by simp)
        exact told (.failed e) _ _ ⟨List.prefix_refl _, .inl rfl, ⟨_, rfl⟩⟩
          (refused.append _) calm''
      · intro e' part said
        have calm'' :
            Calm (log ++ [⟨.flowId, id⟩] ++ events ++
                [⟨.writeAll .client (refuse (.failed e)), .error e'⟩]) :=
          calm'.snoc (by simp)
        exact told (.failed e) _ _ ⟨said, .inr ⟨⟨e, rfl⟩, calm''⟩, ⟨_, rfl⟩⟩
          (refused.append _) calm''

end Second

end Commeatus.Daemon
