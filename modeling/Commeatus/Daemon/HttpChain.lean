import Commeatus.Daemon.ProxyChain

/-!
The HTTP CONNECT outbound of one daemon (`handshake_stream` in
`daemon/src/protocol.rs`) against the HTTP CONNECT inbound of another (`handle` in
`daemon/src/http_connect.rs`).

The second daemon reads in chunks, however the request is cut. The first one waits
for the reply in the meantime, so the cuts do not depend on the order of turns.
-/

namespace Commeatus.Daemon

open Commeatus.Lib Commeatus.Core
open Handler Dialogue

variable {η η' : Type}

namespace Protocol

/-- What an outbound makes of a status other than success. -/
def refusedWith (status : Nat) : IoError :=
  ⟨.connectionRefused, "upstream HTTP CONNECT failed with status " ++
    String.ofList (decimal status)⟩

/-- What an inbound says to a client it has to refuse. -/
def refusalText : Refusal → Bytes
  | .rejected _ => HttpConnect.forbidden
  | .failed _ => HttpConnect.badGateway

/-- What a client takes back from a refusal. -/
def tells : Refusal → IoError
  | .rejected _ => refusedWith 403
  | .failed _ => refusedWith 502

/-- A reply with the end of its header at its very end, and what the client's check makes of it. -/
structure ReplyText (reply : Bytes) (outcome : Except IoError Unit) : Prop where
  closed : HttpConnect.headerEnd <:+ reply
  first : ∀ head, head <+: reply → HttpConnect.headerEnd <:+ head → head = reply
  fits : reply.length ≤ maxHttpResponseHead
  checked : checkResponse reply = outcome

/-- It is enough to look at the cuts of the reply. -/
theorem ReplyText.of_cuts {reply : Bytes} {outcome : Except IoError Unit}
    (closed : HttpConnect.headerEnd <:+ reply)
    (cuts : ∀ n < reply.length, ¬ HttpConnect.headerEnd <:+ reply.take n)
      (fits : reply.length ≤ maxHttpResponseHead)
    (checked : checkResponse reply = outcome) : ReplyText reply outcome where
  closed := closed
  first head part ends := by
    by_contra other
    have shorter : head.length < reply.length :=
      Nat.lt_of_le_of_ne part.length_le fun same => other (part.eq_of_length same)
    apply cuts _ shorter
    rwa [← List.prefix_iff_eq_take.mp part]
  fits := fits
  checked := checked

/-- A client that has not had the whole reply has room for another byte. -/
theorem ReplyText.room {reply head : Bytes} {outcome : Except IoError Unit} {remaining : Nat}
    (text : ReplyText reply outcome)
    (inside : head <+: reply) (more : ¬ HttpConnect.headerEnd <:+ head)
    (room : remaining + head.length = maxHttpResponseHead) :
    ∃ n, remaining = n + 1 := by
  cases remaining with
  | succ n => exact ⟨n, rfl⟩
  | zero =>
    have fits := text.fits
    obtain rfl := inside.eq_of_length_le (by omega)
    exact absurd text.closed more

theorem replyText_established : ReplyText HttpConnect.established (.ok ()) := by
  apply ReplyText.of_cuts
  · decide
  · decide
  · decide
  · rfl

theorem replyText_forbidden : ReplyText HttpConnect.forbidden (.error (refusedWith 403)) := by
  apply ReplyText.of_cuts
  · decide
  · decide
  · decide
  · rfl

theorem replyText_badGateway : ReplyText HttpConnect.badGateway (.error (refusedWith 502)) := by
  apply ReplyText.of_cuts
  · decide
  · decide
  · decide
  · rfl

theorem replyText_badRequest : ReplyText HttpConnect.badRequest (.error (refusedWith 400)) := by
  apply ReplyText.of_cuts
  · decide
  · decide
  · decide
  · rfl

theorem replyText_refusal (refusal : Refusal) :
    ReplyText (refusalText refusal) (.error (tells refusal)) := by
  cases refusal with
  | rejected reason => exact replyText_forbidden
  | failed e => exact replyText_badGateway

end Protocol

open Protocol

/-! ### The client -/

section Client

variable {runtime : Runtime} {registry : Registry η'} {target : Target}
  {server : Party (HandlerAct η') HandlerAns (Except IoError Unit)} {part : Bytes}
  {log : List (HandlerEvent η)}

/-- What the client does after its request. -/
def awaitResponse (remaining : Nat) (head : Bytes) : Handler η Unit :=
  Remote.readHttpResponseHead remaining head >>= fun head => Attempt.lift (checkResponse head)

theorem awaitResponse_ends {head : Bytes}
    (ends : HttpConnect.headerEnd <:+ head) (remaining : Nat) :
    (awaitResponse remaining head : Handler η Unit) = Prog.done (checkResponse head) := by
  cases remaining with
  | zero =>
    rw [awaitResponse, Remote.readHttpResponseHead, if_pos ends]
    rfl
  | succ remaining =>
    rw [awaitResponse, Remote.readHttpResponseHead, if_pos ends]
    rfl

theorem awaitResponse_reads {head : Bytes} (more : ¬ HttpConnect.headerEnd <:+ head)
    (remaining : Nat) :
    (awaitResponse (remaining + 1) head : Handler η Unit) =
      readExact .remote 1 >>= fun byte => awaitResponse remaining (head ++ byte) := by
  rw [awaitResponse, Remote.readHttpResponseHead, if_neg more, Attempt.bind_assoc]
  rfl

/-- The client reads what it has been told, byte by byte. -/
theorem agrees_heard {reply : Bytes} {outcome : Except IoError Unit}
    (text : ReplyText reply outcome)
    (told : Said reply part server)
    (checked : ∀ clog : List (HandlerEvent η),
      Agrees runtime registry target tells ⟨⟨.done outcome, [], clog, false⟩, server⟩)
    {remaining : Nat} {head rest : Bytes} (read : head ++ rest = part)
    (room : remaining + head.length = maxHttpResponseHead) :
    Agrees runtime registry target tells
      ⟨⟨(awaitResponse remaining head : Handler η Unit), rest, log, false⟩, server⟩ := by
  obtain ⟨said, whole, ended⟩ := id told
  induction rest generalizing remaining head log with
  | nil =>
    rw [List.append_nil] at read
    subst read
    by_cases ends : HttpConnect.headerEnd <:+ head
    · obtain rfl := text.first head said ends
      rw [awaitResponse_ends ends, text.checked]
      exact checked log
    · have failed : Failed server := by
        rcases whole with rfl | failed
        · exact absurd text.closed ends
        · exact failed
      obtain ⟨remaining, rfl⟩ := text.room said ends room
      rw [awaitResponse_reads ends]
      exact agrees_starved failed (by simp)
  | cons byte rest ih =>
    have inside : head <+: reply := List.IsPrefix.trans ⟨byte :: rest, read⟩ said
    have more : ¬ HttpConnect.headerEnd <:+ head := by
      intro ends
      obtain rfl := text.first head inside ends
      have longer := said.length_le
      simp only [← read, List.length_append, List.length_cons] at longer
      omega
    obtain ⟨remaining, rfl⟩ := text.room inside more room
    rw [awaitResponse_reads more]
    apply settles_readExact (.inl (by simp))
    · intro _
      apply ih (by simpa using read)
      simp
      omega
    · intro _ short
      simp at short
    · exact fun e rest => agrees_broken e

/-- A true refusal is taken back as such. -/
theorem agrees_refused {refusal : Refusal} (told : Said (refusalText refusal) part server)
    (refused : RouteRefused runtime registry target server.log refusal) (calm : Calm server.log) :
    Agrees runtime registry target tells
      ⟨⟨(awaitResponse maxHttpResponseHead [] : Handler η Unit), part, log, false⟩, server⟩ :=
  agrees_heard (replyText_refusal refusal) told
    (fun _ => .ended ⟨⟨_, rfl⟩, told.ended⟩ (.refused rfl refused calm)) rfl rfl

/-- The tunnel stands. -/
theorem agrees_established (told : Said HttpConnect.established part server)
    (drained : server.inbox = [])
    (routed : Routed runtime registry target server.log) :
    Agrees runtime registry target tells
      ⟨⟨(awaitResponse maxHttpResponseHead [] : Handler η Unit), part, log, false⟩, server⟩ :=
  agrees_heard replyText_established told
    (fun _ => .ended ⟨⟨_, rfl⟩, told.ended⟩ (.opened rfl ⟨rfl, drained⟩ routed)) rfl rfl

/-- The connection has failed the second daemon while it read the request, and it says so. -/
theorem agrees_misread (told : Said HttpConnect.badRequest part server)
    (broken : server.broken = true) :
    Agrees runtime registry target tells
      ⟨⟨(awaitResponse maxHttpResponseHead [] : Handler η Unit), part, log, false⟩, server⟩ :=
  agrees_heard replyText_badRequest told
    (fun _ => .ended ⟨⟨_, rfl⟩, told.ended⟩ (.broken rfl (.inr broken))) rfl rfl

end Client

/-! ### The second daemon -/

section Second

variable {runtime : Runtime} {registry : Registry η'} {target : Target}
  {client : Party (HandlerAct η) HandlerAns (Except IoError Unit)} {inbox : Bytes}
  {log : List (HandlerEvent η')}

/-- The second daemon reads its request, cut into chunks in any way, from a client that waits. -/
theorem agrees_readHead {k : Except IoError (Bytes × Nat) →
    Prog (HandlerAct η') HandlerAns (Except IoError Unit)}
    {request : Bytes} {position : Nat} (quiet : client.Silent (wiring .remote))
    (found : HttpConnect.findHeaderEnd request = some position)
    (whole : request.length = position + 4)
    (fits : request.length ≤ HttpConnect.maxHeaderBytes)
    (read : ∀ log', Calm log' →
      AgreesBack runtime registry target tells
        ⟨⟨k (.ok (request, position)), [], log', false⟩, client⟩)
    (fails : ∀ e rest log', Calm log' →
      AgreesBack runtime registry target tells ⟨⟨k (.error e), rest, log', true⟩, client⟩)
    {buffer rest : Bytes} (split : buffer ++ rest = request) (calm : Calm log) :
    AgreesBack runtime registry target tells
      ⟨⟨Prog.andThen (HttpConnect.Client.readHead buffer) k, rest, log, false⟩, client⟩ := by
  induction remaining : rest.length using Nat.strong_induction_on generalizing buffer rest log with
  | _ n ih =>
    subst remaining
    cases rest with
    | nil =>
      rw [List.append_nil] at split
      subst split
      rw [HttpConnect.Client.readHead_found found]
      exact read log calm
    | cons byte rest =>
      have none : HttpConnect.findHeaderEnd buffer = none := by
        cases early : HttpConnect.findHeaderEnd buffer with
        | none => rfl
        | some position' =>
          obtain ⟨stays, inside⟩ := HttpConnect.findHeaderEnd_append early (byte :: rest)
          rw [split, found] at stays
          cases stays
          simp [← split] at whole
          omega
      have room : ¬ HttpConnect.maxHeaderBytes ≤ buffer.length := by
        simp [← split] at fits
        omega
      rw [HttpConnect.Client.readHead_reads none room]
      obtain ⟨more, limit⟩ :
          ∃ more, min (HttpConnect.maxHeaderBytes - buffer.length) 1024 = more + 1 :=
        ⟨min (HttpConnect.maxHeaderBytes - buffer.length) 1024 - 1, by omega⟩
      rw [limit]
      apply Settles.left_polls rfl rfl quiet (.inl (by simp)) <;>
        simp only [Party.goes, Bool.or_false, Bool.or_true]
      · intro chunk rest' cut some within
        obtain ⟨b, chunk, rfl⟩ := List.exists_cons_of_ne_nil some
        apply ih rest'.length _ _ (calm.snoc (by simp)) rfl
        · rw [cut, List.length_append, List.length_cons]
          omega
        · rw [List.append_assoc, ← cut]
          exact split
      · intro _ empty
        cases empty
      · exact fun e => fails e _ _ (calm.snoc (by simp))

/-- What the second daemon does with a request, or with the error of reading it. -/
def onRequest (runtime : Runtime) (registry : Registry η') :
    Except IoError (Target × Bytes) → Handler η' Unit
  | .error e => Attempt.caught (writeAll .client HttpConnect.badRequest) >>= fun _ => Attempt.fail e
  | .ok (target, buffered) => HttpConnect.Client.serve runtime registry target buffered

/-- The request in a header that was read. -/
def parseHead (head : Bytes × Nat) : Handler η' (Target × Bytes) := do
  let target ← Attempt.lift (HttpConnect.parseRequestHead (head.1.take head.2))
  pure (target, head.1.drop (head.2 + 4))

/-- What the second daemon does with the header it has read. -/
def onHead (runtime : Runtime) (registry : Registry η') (result : Except IoError (Bytes × Nat)) :
    Handler η' Unit :=
  Attempt.caught (Attempt.follow parseHead result) >>= onRequest runtime registry

theorem handle_eq' (runtime : Runtime) (registry : Registry η') :
    HttpConnect.Client.handle runtime registry =
    boundClient >>= fun _ =>
      Prog.andThen (HttpConnect.Client.readHead []) (onHead runtime registry) := by
  have program :
    (Attempt.caught HttpConnect.Client.readRequest >>=
      onRequest runtime registry : Handler η' Unit) =
      Prog.andThen (HttpConnect.Client.readHead []) (onHead runtime registry) := by
    apply (Prog.andThen_assoc _ _ _).trans
    apply (Prog.andThen_assoc (HttpConnect.Client.readHead []) (Attempt.follow parseHead) _).trans
    apply congrArg (Prog.andThen (HttpConnect.Client.readHead []))
    funext result
    exact (Prog.andThen_assoc (Attempt.follow parseHead result) _ _).symm
  rw [← program]
  rfl

theorem onHead_request {target : Target} {request : Bytes} {position : Nat} (runtime : Runtime)
    (registry : Registry η')
    (parsed : HttpConnect.parseRequestHead (request.take position) = .ok target)
    (whole : request.length = position + 4) :
    onHead runtime registry (.ok (request, position)) =
      HttpConnect.Client.serve runtime registry target [] := by
  have none : request.drop (position + 4) = [] := List.drop_eq_nil_of_le (Nat.le_of_eq whole)
  change Attempt.caught (Attempt.lift (HttpConnect.parseRequestHead (request.take position)) >>=
      fun target =>
    pure (target, request.drop (position + 4))) >>= onRequest runtime registry = _
  rw [parsed, none]
  rfl

theorem serve_eq (runtime : Runtime) (registry : Registry η') (target : Target) :
    HttpConnect.Client.serve runtime registry target [] = Prog.act HandlerAct.flowId
      (answering refusalText (writeAll .client HttpConnect.established >>= fun _ =>
        unboundClient >>= fun _ => relay)
        runtime registry target) :=
  rfl

end Second

/-! ### The chain -/

section Whole

variable {runtime : Runtime} {registry : Registry η'} {target : Target}

/-- A client that waits for the response says nothing more. -/
theorem silent_awaitResponse {clog : List (HandlerEvent η)} :
    (⟨awaitResponse maxHttpResponseHead [], [], clog, false⟩ : Party (HandlerAct η) HandlerAns
      (Except IoError Unit)).Silent
      (wiring .remote) := by
  have more : ¬ HttpConnect.headerEnd <:+ [] := by simp [HttpConnect.headerEnd]
  have program : (awaitResponse maxHttpResponseHead [] : Handler η Unit) =
      Prog.act (HandlerAct.readExact .remote 1)
          (Attempt.follow fun byte => awaitResponse 16383 ([] ++ byte)) :=
    awaitResponse_reads more 16383
  rw [program]
  exact .waits rfl rfl (by simp) fun e => ⟨.error e, rfl⟩

/-- A request whose header ends at its very end, fits the inbound's buffer, and asks for the
target. -/
structure AsksFor (request : Bytes) (position : Nat) (target : Target) : Prop where
  found : HttpConnect.findHeaderEnd request = some position
  whole : request.length = position + 4
  fits : request.length ≤ HttpConnect.maxHeaderBytes
  parsed : HttpConnect.parseRequestHead (request.take position) = .ok target

theorem asksFor_connectRequest (name : ∀ t, target.host = .domain t → InboundName t)
    (plain : PlainAuthority target) :
    AsksFor (utf8 (connectRequest target)) (byteLen (connectHead target)) target := by
  have noSpace : ∀ t, target.host = .domain t → ∀ c ∈ t, isWhitespace c = false := by
    intro t isDomain
    unfold PlainAuthority at plain
    rw [isDomain] at plain
    exact plain.1
  have noSpace := targetAuthority_noSpace noSpace
  have noReturn : '\r' ∉ targetAuthority target := fun mem => absurd (noSpace _ mem) (by decide)
  have short := byteLen_targetAuthority fun t isDomain => (name t isDomain).short
  have split : utf8 (connectRequest target) = utf8 (connectHead target) ++
      HttpConnect.headerEnd := by
    rw [connectRequest_eq, utf8_append]
    rfl
  have whole : (utf8 (connectRequest target)).length = byteLen (connectHead target) + 4 := by
    rw [split, List.length_append]
    rfl
  have size : byteLen (connectHead target) ≤ 1000 := by
    obtain ⟨connect, version, host, keep, return_, newline⟩ := literal_byteLen
    unfold connectHead requestLine hostLine
    simp only [byteLen_append, byteLen_cons, connect, version, host, keep, return_, newline]
    omega
  refine ⟨findHeaderEnd_connectRequest noReturn, whole, ?_, ?_⟩
  · rw [whole, HttpConnect.maxHeaderBytes]
    omega
  · have head : (utf8 (connectRequest target)).take (byteLen (connectHead target)) =
        utf8 (connectHead target) := by
      rw [split]
      exact List.take_left
    rw [head, parseRequestHead_connectHead (targetAuthority_ne_nil target) noSpace]
    exact parseAuthority_targetAuthority name plain

/-- The second daemon has the whole request on its connection. -/
theorem agrees_asked {request : Bytes} {position : Nat} (asks : AsksFor request position target)
    {clog : List (HandlerEvent η)} :
    Agrees runtime registry target tells
      ⟨⟨(awaitResponse maxHttpResponseHead [] : Handler η Unit), [], clog, false⟩,
      ⟨HttpConnect.Client.handle runtime registry, request, [], false⟩⟩ := by
  apply agrees_iff_back.mpr
  rw [handle_eq']
  apply settles_elsewhere staysElsewhere_boundClient
  intro events result _ calm
  cases result with
  | error e =>
    apply agrees_iff_back.mp
    have more : ¬ HttpConnect.headerEnd <:+ [] := by simp [HttpConnect.headerEnd]
    have program : (awaitResponse maxHttpResponseHead [] : Handler η Unit) =
        readExact .remote 1 >>= fun byte => awaitResponse 16383 ([] ++ byte) :=
          awaitResponse_reads more 16383
    rw [program]
    exact agrees_starved ⟨⟨e, rfl⟩, calm⟩ (by simp)
  | ok =>
    apply agrees_readHead silent_awaitResponse asks.found asks.whole asks.fits _ _
      (List.nil_append _) calm
    · intro log' calm'
      rw [onHead_request runtime registry asks.parsed asks.whole, serve_eq]
      apply agrees_answering _ _ calm'
      · intro refusal part server said refused calm''
        exact agrees_iff_back.mp (agrees_refused said refused calm'')
      · intro log'' routed calm''
        apply agrees_accepting _ routed calm''
        intro part server said drained routed'
        exact agrees_iff_back.mp (agrees_established said drained routed')
    · intro e rest log' calm'
      apply Settles.left_sends rfl rfl <;> simp only [Party.goes, Bool.or_true, Bool.or_false]
      · apply agrees_iff_back.mp
        apply agrees_misread ⟨List.prefix_refl _, .inl rfl, ⟨_, rfl⟩⟩ rfl
      · intro e' part said
        have failed :
          Failed (⟨.done (.error e), rest,
            log' ++ [⟨.writeAll .client HttpConnect.badRequest, .error e'⟩], true⟩ :
            Party (HandlerAct η') HandlerAns (Except IoError Unit)) :=
              ⟨⟨e, rfl⟩, calm'.snoc (by simp)⟩
        exact agrees_iff_back.mp (agrees_misread ⟨said, .inr failed, ⟨_, rfl⟩⟩ rfl)

/-- The request is written piece by piece. -/
theorem agrees_writePieces {f : Unit → Handler η Unit}
    {server : Party (HandlerAct η') HandlerAns (Except IoError Unit)}
    {pieces : List Str} {log : List (HandlerEvent η)}
    (sent : ∀ log', Agrees runtime registry target tells ⟨⟨f (), [], log', false⟩,
      server.hears (utf8 pieces.flatten)⟩) :
    Agrees runtime registry target tells
      ⟨⟨(Remote.writePieces pieces >>= f : Handler η Unit), [], log, false⟩, server⟩ := by
  induction pieces generalizing server log with
  | nil =>
    have sent := sent log
    rwa [List.flatten_nil, show utf8 [] = [] from rfl, Party.hears_nil] at sent
  | cons piece pieces ih =>
    rw [Remote.writePieces, Attempt.bind_assoc]
    apply settles_writeAll
    · apply ih
      intro log'
      have sent := sent log'
      rw [List.flatten_cons, utf8_append] at sent
      simpa [Party.hears] using sent
    · exact fun e part _ => agrees_broken e

/-- A daemon performs the HTTP CONNECT handshake with another one, for a target that an inbound has
made and whose name an authority can carry. Whatever the order of their turns, however the request
is cut into reads, whatever the second daemon meets when it opens the route, and wherever the
connection fails: the two are never stuck, and when both have ended, the handshake has succeeded
only if the second daemon has opened a route to this very target, and has left nothing on the
connection that is not the tunnel's; otherwise it has the second daemon's status, or the
connection's failure. -/
theorem http_chain_agrees {runtime : Runtime} {registry : Registry η'} {target : Target}
    (inbound : InboundTarget target)
    (plain : PlainAuthority target)
    {d : Chain η η'}
    (run : Relation.ReflTransGen (fun a b => ∃ fault,
      Step (wiring .remote) (wiring .client) fault a b)
      (start (Protocol.Remote.handshakeStream target) (HttpConnect.Client.handle runtime registry))
        d) :
    (d.Ended → Agreed runtime registry target tells d) ∧
      ∃ d', Relation.ReflTransGen (Step (wiring .remote) (wiring .client) false) d d' ∧
        d'.Ended := by
  have name : ∀ t, target.host = .domain t → InboundName t := fun t => inbound.inboundName
  apply Settles.runs _ run
  apply agrees_writePieces
  intro log
  rw [requestPieces_flatten]
  apply settles_flush _ fun e => agrees_broken e
  exact agrees_asked (asksFor_connectRequest name plain)

/-- The chain for a name that a client wrote in capitals with a dot behind it, to its end. -/
theorem http_chain_agrees_example : ∃ d' : Chain Unit Unit,
    Relation.ReflTransGen (Step (wiring .remote) (wiring .client) false)
      (start (Protocol.Remote.handshakeStream ⟨.domain "example.com".toList, 443, by decide⟩)
        (HttpConnect.Client.handle HttpConnect.sampleRuntime {})) d' ∧ d'.Ended ∧
      Agreed HttpConnect.sampleRuntime {} ⟨.domain "example.com".toList,
        443, by decide⟩ tells d' := by
  have accepted : InboundInput.accepts (.httpAuthority "Example.com.:443".toList) =
      some ⟨.domain "example.com".toList, 443, by decide⟩ := by decide
  have plain : PlainAuthority ⟨.domain "example.com".toList, 443, by decide⟩ :=
    ⟨by simp [isWhitespace], by simp, by simp, by decide⟩
  obtain ⟨-, d', quiet, ended⟩ :=
    @http_chain_agrees Unit Unit HttpConnect.sampleRuntime {} _ (.client accepted) plain _ .refl
  exact ⟨d', quiet, ended,
    (http_chain_agrees (.client accepted) plain (runs_of_quiet quiet)).1 ended⟩

end Whole

end Commeatus.Daemon
