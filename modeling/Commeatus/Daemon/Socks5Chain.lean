import Commeatus.Daemon.ProxyChain

/-!
The SOCKS5 outbound of one daemon (`handshake_stream` in `daemon/src/protocol.rs`)
against the SOCKS5 inbound of another (`handle` in `daemon/src/socks5.rs`).

The order of turns that is followed here: the first daemon goes on for as long as it
has something to say, then the second one does.
-/

namespace Commeatus.Daemon

open Commeatus.Lib Commeatus.Core
open Handler Dialogue

variable {η η' : Type}

namespace Socks5Protocol

/-- What an outbound makes of a reply code. -/
def refusedWith (code : UInt8) : IoError :=
  ⟨.connectionRefused, "upstream SOCKS5 CONNECT failed with reply code " ++
    String.ofList (decimal code.toNat)⟩

/-- The code under which a refusal is told. -/
def codeOf : Refusal → UInt8
  | .rejected _ => 0x02
  | .failed e => Socks5.connectErrorCode e

theorem connectErrorCode_ne_zero (e : IoError) : Socks5.connectErrorCode e ≠ 0 := by
  unfold Socks5.connectErrorCode
  split <;> simp

theorem codeOf_ne_zero (refusal : Refusal) : codeOf refusal ≠ 0 := by
  cases refusal with
  | rejected reason => simp [codeOf]
  | failed e => exact connectErrorCode_ne_zero e

/-- What a client takes back from a refusal. -/
def tells (refusal : Refusal) : IoError := refusedWith (codeOf refusal)

end Socks5Protocol

open Socks5Protocol

/-! ### The client -/

section Client

variable {runtime : Runtime} {registry : Registry η'} {target : Target}
  {server : Party (HandlerAct η') HandlerAns (Except IoError Unit)} {inbox part : Bytes}
  {log : List (HandlerEvent η)}

/-- The first octets of a reply. -/
theorem replyBytes_eq (code : UInt8) (bound : Option SocketAddr) :
    ∃ addressType field, Socks5.replyBytes code bound = [0x05, code, 0x00, addressType] ++ field ∧
      ((addressType = 0x01 ∧ field.length = 6) ∨ (addressType = 0x04 ∧ field.length = 18)) := by
  unfold Socks5.replyBytes
  generalize bound.getD Socks5.unspecified = address
  obtain ⟨ip, port⟩ := address
  cases ip with
  | v4 ip =>
      exact ⟨0x01, ip.octets ++
        toBeBytes port, by simp [Socks5.version], .inl ⟨rfl, by simp [toBeBytes, Ipv4Addr.octets]⟩⟩
  | v6 ip =>
      exact ⟨0x04, ip.octets ++
        toBeBytes port, by simp [Socks5.version], .inr ⟨rfl, by simp [toBeBytes]⟩⟩

theorem discardSocksAddress_v4 (f : Unit → Handler η Unit) :
    (Remote.discardSocksAddress 0x01 >>= f : Handler η Unit) = readExact .remote 4 >>=
      fun _ => f () := by
  rw [Remote.discardSocksAddress, if_pos rfl, Attempt.bind_assoc]
  rfl

theorem discardSocksAddress_v6 (f : Unit → Handler η Unit) :
    (Remote.discardSocksAddress 0x04 >>= f : Handler η Unit) = readExact .remote 16 >>=
      fun _ => f () := by
  rw [Remote.discardSocksAddress, if_neg (by simp), if_neg (by simp),
    if_pos rfl, Attempt.bind_assoc]
  rfl

/-- The client reads a bound address of the given size and its port. -/
theorem agrees_bound {size : Nat} (routed : Routed runtime registry target server.log)
    (ended : server.Ended)
    (drained : server.inbox = []) (within : inbox.length ≤ size + 2)
    (cut : inbox.length < size + 2 → Failed server) :
    Agrees runtime registry target tells
      ⟨⟨(readExact .remote size >>= fun _ => readExact .remote 2 >>= fun _ =>
        pure () : Handler η Unit), inbox, log, false⟩, server⟩ := by
  apply settles_readExact (.inr ended)
  · intro enough
    apply settles_readExact (.inr ended)
    · intro port
      rw [List.length_drop] at port
      apply Settles.ended ⟨⟨_, rfl⟩, ended⟩
      exact .opened rfl ⟨by simp; omega, drained⟩ routed
    · intro _ short
      rw [List.length_drop] at short
      exact agrees_abandoned (cut (by omega))
    · exact fun e rest => agrees_broken e
  · intro _ short
    exact agrees_abandoned (cut (by omega))
  · exact fun e rest => agrees_broken e

/-- The client reads what it has been told, if that is true. -/
theorem agrees_told {code : UInt8} {bound : Option SocketAddr}
    (told : Said (Socks5.replyBytes code bound) part server)
    (truth : (code = 0 ∧ server.inbox = [] ∧ Routed runtime registry target server.log) ∨
      ∃ refusal, code = codeOf refusal ∧ RouteRefused runtime registry target server.log refusal ∧
        Calm server.log) :
    Agrees runtime registry target tells
      ⟨⟨(Remote.readReply : Handler η Unit), part, log, false⟩, server⟩ := by
  obtain ⟨said, whole, ended⟩ := told
  obtain ⟨addressType, field, reply, size⟩ := replyBytes_eq code bound
  rw [reply] at said whole
  have cut : part.length < 4 + field.length → Failed server := by
    intro short
    rcases whole with all | failed
    · simp [all] at short
      omega
    · exact failed
  by_cases short : part.length < 4
  · exact agrees_starved (cut (by omega)) short
  obtain ⟨rest, rfl⟩ :=
    List.prefix_of_prefix_length_le (List.prefix_append [0x05, code, 0x00, addressType] field) said
    (Nat.not_lt.mp short)
  have inside := ((List.prefix_append_right_inj _).mp said).length_le
  have follow : rest.length < field.length → Failed server := by
    intro short
    apply cut
    simp
    omega
  apply settles_readExact (.inr ended)
  · intro _
    have valid :
        ¬ (byteAt [0x05, code, 0x00, addressType] 0 ≠ 0x05 ∨
            byteAt [0x05, code, 0x00, addressType] 2 ≠ 0x00) := by
      simp [byteAt]
    have taken : ([0x05, code, 0x00, addressType] ++ rest).take 4 =
        [0x05, code, 0x00, addressType] := rfl
    have dropped : ([0x05, code, 0x00, addressType] ++ rest).drop 4 = rest := rfl
    rw [taken, dropped, if_neg valid]
    rcases truth with ⟨rfl, drained, routed⟩ | ⟨refusal, rfl, refused, calm⟩
    · rw [if_neg (by simp [byteAt])]
      change Agrees _ _ _ _
        ⟨⟨(Remote.discardSocksAddress addressType >>= fun _ => readExact .remote 2 >>=
          fun _ => pure () :
        Handler η Unit), rest, _, false⟩, server⟩
      rcases size with ⟨rfl, size⟩ | ⟨rfl, size⟩
      · rw [discardSocksAddress_v4]
        exact agrees_bound routed ended drained (by omega) fun short => follow (by omega)
      · rw [discardSocksAddress_v6]
        exact agrees_bound routed ended drained (by omega) fun short => follow (by omega)
    · rw [if_pos (by simpa [byteAt] using codeOf_ne_zero refusal)]
      exact .ended ⟨⟨_, rfl⟩, ended⟩ (.refused rfl refused calm)
  · intro _ short'
    exact absurd short' short
  · exact fun e rest => agrees_broken e

/-- The client says its request and waits for the reply. -/
def sayRequest (request : Bytes) : Handler η Unit := do
  writeAll .remote request
  flush .remote
  Remote.readReply

/-- What the client does with the answer to its greeting. -/
def onMethod (target : Target) (method : Bytes) : Handler η Unit :=
  if method ≠ [0x05, 0x00] then
    Attempt.fail ⟨.permissionDenied, "upstream SOCKS5 proxy did not accept no-auth"⟩
  else do
    let request ← Attempt.lift (connectRequest target)
    sayRequest request

theorem handshakeStream_eq (target : Target) : (Remote.handshakeStream target : Handler η Unit) =
    writeAll .remote greeting >>= fun _ => flush .remote >>= fun _ =>
      readExact .remote 2 >>= onMethod target :=
  rfl

theorem onMethod_accepted {request : Bytes} (encoded : connectRequest target = .ok request) :
    (onMethod target [0x05, 0x00] : Handler η Unit) = sayRequest request := by
  rw [onMethod, if_neg (by simp), encoded]
  rfl

/-- The second daemon has failed before it answered the greeting, or before it answered the
request. -/
theorem agrees_failed {request : Bytes} (encoded : connectRequest target = .ok request)
    (failed : Failed server)
    (said : part <+: [0x05, 0x00]) :
    Agrees runtime registry target tells
      ⟨⟨(readExact .remote 2 >>= onMethod target : Handler η Unit), part, log, false⟩, server⟩ := by
  by_cases short : part.length < 2
  · exact agrees_starved failed short
  obtain rfl := said.eq_of_length_le (by simp; omega)
  apply settles_readExact (.inr failed.ended)
  · intro _
    have accepted : ([0x05, 0x00] : Bytes).take 2 = [0x05, 0x00] := rfl
    rw [accepted, onMethod_accepted encoded]
    apply settles_writeAll
    · apply settles_flush
      · exact agrees_starved (failed.hears request) (by simp)
      · exact fun e => agrees_broken e
    · exact fun e part _ => agrees_broken e
  · exact fun _ _ => agrees_abandoned failed
  · exact fun e rest => agrees_broken e

end Client

/-! ### The second daemon -/

section Second

variable {runtime : Runtime} {registry : Registry η'} {target : Target}
  {client : Party (HandlerAct η) HandlerAns (Except IoError Unit)} {inbox : Bytes}
  {log : List (HandlerEvent η')}

theorem handleConnect_eq (runtime : Runtime) (registry : Registry η') (target : Target) :
    Socks5.handleConnect runtime registry target = Prog.act HandlerAct.flowId
      (answering (fun refusal => Socks5.replyBytes (codeOf refusal) none)
        (Attempt.caught (localAddr .remote) >>= fun bound =>
        writeAll .client (Socks5.replyBytes 0x00 bound.toOption) >>= fun _ =>
          unboundClient >>= fun _ => relay)
        runtime registry target) :=
  rfl

/-- The second daemon opens the route and answers a client that waits for its reply. -/
theorem agrees_handleConnect {clog : List (HandlerEvent η)} (calm : Calm log) :
    AgreesBack runtime registry target tells
      ⟨⟨Socks5.handleConnect runtime registry target, [], log, false⟩,
        ⟨Remote.readReply, [], clog, false⟩⟩ := by
  rw [handleConnect_eq]
  apply agrees_answering _ _ calm
  · intro refusal part server said refused calm'
    apply agrees_iff_back.mp
    exact agrees_told said (.inr ⟨refusal, rfl, refused, calm'⟩)
  · intro log' routed calm'
    apply Settles.left_off rfl rfl
    intro bound
    simp only [Party.goes, Bool.or_false]
    apply agrees_accepting _ (routed.append _) (calm'.snoc (by simp))
    intro part server said drained routed'
    apply agrees_iff_back.mp
    exact agrees_told said (.inl ⟨rfl, drained, routed'⟩)

/-- The second daemon reads the greeting and accepts its method. -/
theorem agrees_negotiateMethod {f : Unit → Handler η' Unit}
    (failed : ∀ (server : Party (HandlerAct η') HandlerAns (Except IoError Unit)) part,
      Failed server → part <+: [0x05, 0x00] →
      AgreesBack runtime registry target tells ⟨server, client.hears part⟩)
    (accepted : ∀ log', Calm log' →
      AgreesBack runtime registry target tells ⟨⟨f (), [], log', false⟩, client.hears [0x05, 0x00]⟩)
      (calm : Calm log) :
    AgreesBack runtime registry target tells
      ⟨⟨(Socks5.Client.negotiateMethod >>= f : Handler η' Unit), greeting, log, false⟩,
        client⟩ := by
  have failed' {log' : List (HandlerEvent η')} (calm' : Calm log') (e : IoError) (rest : Bytes) :
      AgreesBack runtime registry target tells ⟨⟨.done (.error e), rest, log', true⟩, client⟩ := by
    have gone := failed ⟨.done (.error e), rest, log', true⟩ [] ⟨⟨e, rfl⟩, calm'⟩ List.nil_prefix
    rwa [Party.hears_nil] at gone
  unfold Socks5.Client.negotiateMethod
  rw [Attempt.bind_assoc]
  apply settles_readExact (.inl (by simp [greeting]))
  · intro _
    have header : greeting.take 2 = [0x05, 0x01] := rfl
    have rest : greeting.drop 2 = [0x00] := rfl
    have valid : ¬ (byteAt [0x05, 0x01] 0 ≠ Socks5.version ∨ byteAt [0x05, 0x01] 1 = 0) := by
      simp [byteAt, Socks5.version]
    rw [header, rest, if_neg valid, Attempt.bind_assoc]
    apply settles_readExact (.inl (by simp [byteAt]))
    · intro _
      have methods : ([0x00] : Bytes).take (byteAt [0x05, 0x01] 1).toNat = [0x00] := rfl
      have drained : ([0x00] : Bytes).drop (byteAt [0x05, 0x01] 1).toNat = [] := rfl
      rw [methods, drained, if_pos (by simp)]
      apply settles_writeAll
      · apply accepted
        exact ((calm.snoc (by simp)).snoc (by simp)).snoc (by simp)
      · intro e part said
        exact failed _ part ⟨⟨e, rfl⟩, ((calm.snoc (by simp)).snoc (by simp)).snoc (by simp)⟩ said
    · intro _ short
      simp [byteAt] at short
    · exact fun e rest => failed' ((calm.snoc (by simp)).snoc (by simp)) e rest
  · intro _ short
    simp [greeting] at short
  · exact fun e rest => failed' (calm.snoc (by simp)) e rest

end Second

/-! ### Reading the request -/

section Fed

variable {α β : Type} {Act : Type} {Ans : Act → Type} {γ : Type} {w' : Wiring Act Ans}
  {post : Dialogue (HandlerAct η') HandlerAns (Except IoError β) Act Ans γ → Prop}
  {r : Party Act Ans γ}

/-- With bytes on the connection from which the reader takes a value, the program takes the same
value and leaves the same bytes. -/
def Fed (w' : Wiring Act Ans)
    (post : Dialogue (HandlerAct η') HandlerAns (Except IoError β) Act Ans γ → Prop)
    (r : Party Act Ans γ) (p : Handler η' α) (x : IoM ByteStream α) : Prop :=
  ∀ (f : α → Handler η' β) (s s' : ByteStream) (a : α) (log : List (HandlerEvent η')),
    x s = (.ok a, s') → Calm log →
    (∀ log', Calm log' → Settles (wiring .client) w' post ⟨⟨f a, s'.incoming, log', false⟩, r⟩) →
      Settles (wiring .client) w' post ⟨⟨(p >>= f : Handler η' β), s.incoming, log, false⟩, r⟩

theorem Fed.pure (a : α) : Fed w' post r (Pure.pure a : Handler η' α) (Pure.pure a) := by
  intro f s s' b log read calm onward
  cases read
  exact onward log calm

theorem Fed.fail (p : Handler η' α) {x : IoM ByteStream α} (fails : ∀ s s' a, x s ≠ (.ok a, s')) :
    Fed w' post r p x := by
  intro f s s' b log read
  exact absurd read (fails s s' b)

theorem Fed.bind {p : Handler η' α} {x : IoM ByteStream α} {δ : Type} {q : α → Handler η' δ}
    {y : α → IoM ByteStream δ}
    (first : Fed w' post r p x) (next : ∀ a, Fed w' post r (q a) (y a)) :
      Fed w' post r (p >>= q) (x >>= y) := by
  intro f s s'' b log read calm onward
  rw [Attempt.bind_assoc]
  obtain ⟨a, s', read, read'⟩ := IoM.bind_eq_ok.mp read
  apply first _ s s' a log read calm
  intro log' calm'
  exact next a f s' s'' b log' read' calm' onward

theorem Fed.readExact
    (fails : ∀ e rest log, Calm log →
      Settles (wiring .client) w' post ⟨⟨.done (.error e), rest, log, true⟩, r⟩) (count : Nat) :
    Fed w' post r (readExact .client count : Handler η' Bytes) (ByteStream.readExact count) := by
  intro f s s' bytes log read calm onward
  have enough : count ≤ s.incoming.length := by
    by_contra short
    rw [ByteStream.readExact, if_neg short] at read
    cases read
  rw [ByteStream.readExact, if_pos enough] at read
  cases read
  apply settles_readExact (.inl enough)
  · exact fun _ => onward _ (calm.snoc (by simp))
  · intro _ short
    omega
  · exact fun e rest => fails e rest _ (calm.snoc (by simp))

theorem fed_readHost
    (fails : ∀ e rest log, Calm log →
      Settles (wiring .client) w' post ⟨⟨.done (.error e), rest, log, true⟩, r⟩)
    (addressType : UInt8) :
    Fed w' post r (Socks5.Client.readHost addressType) (Socks5.readHost addressType) := by
  unfold Socks5.Client.readHost Socks5.readHost
  split
  · exact (Fed.readExact fails 4).bind fun bytes => .pure _
  split
  · apply (Fed.readExact fails 1).bind
    intro lengthByte
    dsimp only
    split
    · exact .fail _ (by simp)
    · apply (Fed.readExact fails _).bind
      intro bytes
      cases fromUtf8 bytes with
      | none => exact .fail _ (by simp)
      | some text =>
          dsimp only
          split
          · exact .fail _ (by simp)
          · exact .pure _
  split
  · exact (Fed.readExact fails 16).bind fun bytes => .pure _
  · exact .fail _ (by simp)

theorem fed_readRequest
    (fails : ∀ e rest log, Calm log →
      Settles (wiring .client) w' post ⟨⟨.done (.error e), rest, log, true⟩, r⟩) :
    Fed w' post r Socks5.Client.readRequest Socks5.readRequest := by
  apply (Fed.readExact fails 4).bind
  intro header
  split
  · exact .fail _ (by simp)
  apply Fed.bind
  · exact (fed_readHost fails _).bind fun host => (Fed.readExact fails 2).bind fun port => .pure _
  rintro ⟨host, port⟩
  dsimp only
  split
  · cases Target.new host port with
    | error e =>
      apply Fed.fail
      intro s s' request read
      cases read
    | ok target => exact .pure _
  split
  · exact .pure _
  · apply Fed.fail
    intro s s' request read
    obtain ⟨_, _, _, read⟩ := IoM.bind_eq_ok.mp read
    cases read

end Fed

/-! ### The chain -/

section Whole

variable {runtime : Runtime} {registry : Registry η'} {target : Target}

theorem handle_eq (runtime : Runtime) (registry : Registry η') : Socks5.handle runtime registry =
    boundClient >>= fun _ => Socks5.Client.negotiateMethod >>= fun _ =>
      Socks5.Client.readRequest >>= fun
      | .connect target => Socks5.handleConnect runtime registry target
      | .udpAssociate hint => Socks5.handleUdpAssociate hint :=
  rfl

/-- The second daemon has the whole request. -/
theorem agrees_requested {request : Bytes} (encoded : connectRequest target = .ok request)
    (name : ∀ t, target.host = .domain t → InboundName t) {clog : List (HandlerEvent η)}
      {log : List (HandlerEvent η')}
    (calm : Calm log) : Agrees runtime registry target tells
      ⟨⟨Remote.readReply, [], clog, false⟩, ⟨(Socks5.Client.readRequest >>= fun
        | .connect target => Socks5.handleConnect runtime registry target
        | .udpAssociate hint =>
            Socks5.handleUdpAssociate hint : Handler η' Unit), request, log, false⟩⟩ := by
  apply agrees_iff_back.mpr
  obtain ⟨s', read, empty⟩ :=
    readRequest_connectRequest encoded name (s := ⟨request, [], none, []⟩) rfl
  apply fed_readRequest _ _ ⟨request, [], none, []⟩ s' _ log read calm
  · intro log' calm'
    rw [empty]
    exact agrees_handleConnect calm'
  · intro e rest log' calm'
    apply agrees_iff_back.mp
    exact agrees_starved ⟨⟨e, rfl⟩, calm'⟩ (by simp)

/-- The second daemon has the greeting. -/
theorem agrees_greeted {request : Bytes} (encoded : connectRequest target = .ok request)
    (name : ∀ t, target.host = .domain t → InboundName t) {clog : List (HandlerEvent η)} :
      Agrees runtime registry target tells
      ⟨⟨(readExact .remote 2 >>= onMethod target : Handler η Unit), [], clog, false⟩,
        ⟨Socks5.handle runtime registry, greeting, [], false⟩⟩ := by
  rw [agrees_iff_back, handle_eq]
  apply settles_elsewhere staysElsewhere_boundClient
  intro events result _ calm
  cases result with
  | error e =>
    apply agrees_iff_back.mp
    exact agrees_failed encoded ⟨⟨e, rfl⟩, calm⟩ List.nil_prefix
  | ok =>
    apply agrees_negotiateMethod _ _ calm
    · intro server part failed said
      apply agrees_iff_back.mp
      exact agrees_failed encoded failed said
    · intro log' calm'
      apply agrees_iff_back.mp
      apply settles_readExact (.inl (by simp))
      · intro _
        change Agrees _ _ _ _ ⟨⟨onMethod target [0x05, 0x00], [], _, false⟩, _⟩
        rw [onMethod_accepted encoded]
        apply settles_writeAll
        · apply settles_flush
          · exact agrees_requested encoded name calm'
          · exact fun e => agrees_broken e
        · exact fun e part _ => agrees_broken e
      · intro _ short
        simp at short
      · exact fun e rest => agrees_broken e

/-- A daemon performs the SOCKS5 handshake with another one, for a target that an inbound has made.
Whatever the order of their turns, whatever the second daemon meets when it opens the route, and
wherever the connection fails: the two are never stuck, and when both have ended, the handshake has
succeeded only if the second daemon has opened a route to this very target, and has left nothing on
the connection that is not the tunnel's; otherwise it has the second daemon's reason, or the
connection's failure. -/
theorem socks5_chain_agrees {runtime : Runtime} {registry : Registry η'} {target : Target}
    (inbound : InboundTarget target)
    {d : Chain η η'}
    (run : Relation.ReflTransGen (fun a b => ∃ fault,
      Step (wiring .remote) (wiring .client) fault a b)
      (start (Socks5Protocol.Remote.handshakeStream target) (Socks5.handle runtime registry)) d) :
    (d.Ended → Agreed runtime registry target tells d) ∧
      ∃ d', Relation.ReflTransGen (Step (wiring .remote) (wiring .client) false) d d' ∧
        d'.Ended := by
  have name : ∀ t, target.host = .domain t → InboundName t := fun t => inbound.inboundName
  obtain ⟨request, encoded⟩ := connectRequest_ok fun t isDomain =>
    ⟨(name t isDomain).nonempty, Nat.le_trans (name t isDomain).short (by decide)⟩
  apply Settles.runs _ run
  change Agrees runtime registry target tells ⟨⟨Remote.handshakeStream target, [], [], false⟩,
    ⟨Socks5.handle runtime registry, [], [], false⟩⟩
  rw [handshakeStream_eq]
  apply settles_writeAll _ fun e part _ => agrees_broken e
  apply settles_flush _ fun e => agrees_broken e
  exact agrees_greeted encoded name

/-- The chain for a name that a client wrote in capitals with a dot behind it, to its end. -/
theorem socks5_chain_agrees_example : ∃ d' : Chain Unit Unit,
    Relation.ReflTransGen (Step (wiring .remote) (wiring .client) false)
      (start (Socks5Protocol.Remote.handshakeStream ⟨.domain "example.com".toList, 443, by decide⟩)
        (Socks5.handle HttpConnect.sampleRuntime {})) d' ∧ d'.Ended ∧
      Agreed HttpConnect.sampleRuntime {} ⟨.domain "example.com".toList,
        443, by decide⟩ tells d' := by
  have accepted : InboundInput.accepts (.httpAuthority "Example.com.:443".toList) =
      some ⟨.domain "example.com".toList, 443, by decide⟩ := by decide
  obtain ⟨-, d', quiet, ended⟩ :=
    @socks5_chain_agrees Unit Unit HttpConnect.sampleRuntime {} _ (.client accepted) _ .refl
  exact ⟨d', quiet, ended, (socks5_chain_agrees (.client accepted) (runs_of_quiet quiet)).1 ended⟩

end Whole

end Commeatus.Daemon
