import Commeatus.Daemon.Connector

/-!
What the handshakes of the outbounds take from a proxy (`daemon/src/protocol.rs`).

A proxy may send bytes of the tunnel right behind its reply, and a reply says
by itself where it ends. A handshake that succeeds has taken the reply and not
a byte more. The connector has the handshakes as programs, and on a carrier
these do the same.
-/

namespace Commeatus.Daemon

open Commeatus.Lib Commeatus.Core

variable {session session' : ByteStream} {target : Target}

/-! ### SOCKS5 -/

namespace Socks5Protocol

/-- A bound address behind its type. -/
inductive BoundAddress : UInt8 → Bytes → Prop where
  | ipv4 {octets : Bytes} (size : octets.length = 4) : BoundAddress 0x01 octets
  | name {length : UInt8} {name : Bytes} (size : name.length = length.toNat) :
      BoundAddress 0x03 (length :: name)
  | ipv6 {octets : Bytes} (size : octets.length = 16) : BoundAddress 0x04 octets

/-- What a proxy that grants the request replies: the method, the reply code, the bound address and
its port. -/
inductive Granted : Bytes → Prop where
  | intro {addressType : UInt8} {address port : Bytes} (bound : BoundAddress addressType address)
      (size : port.length = 2) :
      Granted ([0x05, 0x00] ++ [0x05, 0x00, 0x00, addressType] ++ address ++ port)

theorem discardSocksAddress_takes {addressType : UInt8}
    (discarded : discardSocksAddress addressType session = (.ok (), session')) :
    ∃ address, BoundAddress addressType address ∧
      session.incoming = address ++ session'.incoming := by
  unfold discardSocksAddress at discarded
  split at discarded
  · rename_i type
    obtain ⟨octets, s₁, read, ends⟩ := IoM.bind_eq_ok.mp discarded
    cases ends
    obtain ⟨taken, size⟩ := ByteStream.readExact_split read
    exact ⟨octets, type ▸ .ipv4 size, taken⟩
  split at discarded
  · rename_i type
    obtain ⟨length, s₁, read, named⟩ := IoM.bind_eq_ok.mp discarded
    obtain ⟨name, s₂, read', ends⟩ := IoM.bind_eq_ok.mp named
    cases ends
    obtain ⟨taken, one⟩ := ByteStream.readExact_split read
    obtain ⟨taken', size⟩ := ByteStream.readExact_split read'
    obtain ⟨octet, rfl⟩ := List.length_eq_one_iff.mp one
    refine ⟨octet :: name, type ▸ .name size, ?_⟩
    rw [taken, taken', List.singleton_append, List.cons_append]
  split at discarded
  · rename_i type
    obtain ⟨octets, s₁, read, ends⟩ := IoM.bind_eq_ok.mp discarded
    cases ends
    obtain ⟨taken, size⟩ := ByteStream.readExact_split read
    exact ⟨octets, type ▸ .ipv6 size, taken⟩
  · cases discarded

theorem readReply_takes (replied : readReply session = (.ok (), session')) :
    ∃ addressType address port, BoundAddress addressType address ∧ port.length = 2 ∧
      session.incoming = [0x05, 0x00, 0x00, addressType] ++ address ++ port ++
        session'.incoming := by
  obtain ⟨reply, s₁, read, checked⟩ := IoM.bind_eq_ok.mp replied
  split at checked
  · cases checked
  rename_i valid
  split at checked
  · cases checked
  rename_i granted
  obtain ⟨u, s₂, discarded, after⟩ := IoM.bind_eq_ok.mp checked
  obtain ⟨port, s₃, read', ends⟩ := IoM.bind_eq_ok.mp after
  cases ends
  obtain ⟨taken, size⟩ := ByteStream.readExact_split read
  obtain ⟨taken', size'⟩ := ByteStream.readExact_split read'
  obtain ⟨address, bound, behind⟩ := discardSocksAddress_takes discarded
  -- Four octets were read, and the first three have been checked.
  obtain ⟨a, b, c, d, rfl⟩ : ∃ a b c d, reply = [a, b, c, d] := by
    match reply, size with
    | [a, b, c, d], _ => exact ⟨a, b, c, d, rfl⟩
  simp only [byteAt, not_or, not_not] at valid granted
  obtain ⟨rfl, rfl⟩ := valid
  subst granted
  refine ⟨d, address, port, bound, size', ?_⟩
  rw [taken, behind, taken']
  simp only [List.append_assoc]

/-- A handshake that succeeds has taken a reply that grants the request. -/
theorem handshakeStream_takes (shaken : handshakeStream target session = (.ok (), session')) :
    ∃ reply, Granted reply ∧ session.incoming = reply ++ session'.incoming := by
  obtain ⟨u, s₁, greeted, after⟩ := IoM.bind_eq_ok.mp shaken
  cases greeted
  obtain ⟨method, s₂, read, chosen⟩ := IoM.bind_eq_ok.mp after
  split at chosen
  · cases chosen
  rename_i accepted
  rw [not_not] at accepted
  obtain ⟨request, s₃, lifted, sends⟩ := IoM.bind_eq_ok.mp chosen
  obtain ⟨-, same⟩ := HttpConnect.lift_eq_ok lifted
  obtain ⟨u, s₄, sent, replied⟩ := IoM.bind_eq_ok.mp sends
  cases sent
  obtain ⟨taken, -⟩ := ByteStream.readExact_split read
  obtain ⟨addressType, address, port, bound, size, behind⟩ := readReply_takes replied
  refine ⟨_, .intro bound size, ?_⟩
  change session.incoming = _ at taken
  change s₃.incoming = _ at behind
  rw [taken, accepted, ← same, behind]
  simp only [List.append_assoc]

end Socks5Protocol

/-! ### HTTP CONNECT -/

namespace Protocol

/-- The reply of a proxy that grants the request: its first line has a version and a status that is
a success. -/
inductive Granted (reply : Bytes) : Prop where
  | intro {text line version status : Str} {more : List Str} {code : Nat}
      (decoded : utf8 text = reply)
      (first : (lines text).head? = some line)
        (fields : splitWhitespace line = version :: status :: more)
      (http : "HTTP/1.".toList <+: version) (number : parseUnsigned 65535 status = some code)
      (success : 200 ≤ code ∧ code < 300) : Granted reply

/-- Before the loop goes on, no header end has been read. -/
theorem readHttpResponseHead_takes {remaining : Nat} {head reply : Bytes}
    (none : ∀ front rest, head.dropLast ≠ front ++ (HttpConnect.headerEnd ++ rest))
    (read : readHttpResponseHead remaining head session = (.ok reply, session')) :
    ∃ more, reply = head ++ more ∧ session.incoming = more ++ session'.incoming ∧
      reply.length ≤ head.length + remaining ∧
      HttpConnect.headerEnd <:+ reply ∧ ∀ front rest,
        reply.dropLast ≠ front ++ (HttpConnect.headerEnd ++ rest) := by
  induction remaining generalizing head session with
  | zero =>
      unfold readHttpResponseHead at read
      split at read
      · rename_i ended
        cases read
        exact ⟨[], (List.append_nil _).symm, rfl, Nat.le_refl _, ended, none⟩
      · cases read
  | succ remaining ih =>
      unfold readHttpResponseHead at read
      split at read
      · rename_i ended
        cases read
        exact ⟨[], (List.append_nil _).symm, rfl, Nat.le_add_right _ _, ended, none⟩
      · rename_i open'
        obtain ⟨byte, s₁, one, later⟩ := IoM.bind_eq_ok.mp read
        obtain ⟨taken, size⟩ := ByteStream.readExact_split one
        obtain ⟨b, rfl⟩ := List.length_eq_one_iff.mp size
        have none' : ∀ front rest, (head ++ [b]).dropLast ≠
            front ++ (HttpConnect.headerEnd ++ rest) := by
          intro front rest inside
          rw [List.dropLast_concat] at inside
          cases rest using List.reverseRecOn with
          | nil =>
              rw [List.append_nil] at inside
              exact open' ⟨front, inside.symm⟩
          | append_singleton rest last =>
              apply none front rest
              rw [inside, ← List.append_assoc, ← List.append_assoc, List.dropLast_concat,
                List.append_assoc]
        obtain ⟨more, rfl, behind, bound, ended, clean⟩ := ih none' later
        refine ⟨b :: more, by simp, by rw [taken, behind]; rfl, ?_, ended, clean⟩
        simp only [List.length_append, List.length_singleton] at bound ⊢
        omega

theorem firstLine_eq (text : Str) : firstLine text = (lines text).head? := by
  by_cases ended : '\n' ∈ text
  · obtain ⟨line, rest, rfl, clean⟩ := List.eq_append_cons_of_mem ended
    have unended : ∀ c ∈ line, (c != '\n') = true := by
      intro c mem
      have other : c ≠ '\n' := fun same => clean (same ▸ mem)
      simpa using other
    have cut : (line ++ '\n' :: rest).takeWhile (· != '\n') = line := by
      simp [List.takeWhile_append_of_pos unended]
    have whole : line.splitOn '\n' = [line] := List.splitOn_eq_singleton clean
    have pieces : (line ++ '\n' :: rest).splitOn '\n' = line :: rest.splitOn '\n' := by
      rw [List.splitOn_append_cons_self, whole, List.singleton_append]
    have some_rest := List.splitOn_ne_nil '\n' rest
    unfold firstLine lines
    rw [pieces]
    dsimp only
    rw [List.dropLast_cons_of_ne_nil some_rest, List.map_cons, List.cons_append,
      List.head?_cons, cut]
    split
    · rename_i no
      cases line <;> cases no
    · have contains : (line ++ '\n' :: rest).contains '\n' = true := by simp
      rw [contains, Bool.true_and]
      by_cases carriage : line.getLast? = some '\r'
      · simp [carriage]
      · simp [carriage]
  · have pieces : text.splitOn '\n' = [text] := List.splitOn_eq_singleton ended
    unfold firstLine lines
    rw [pieces]
    cases text with
    | nil => rfl
    | cons c text =>
        have unended : ∀ d ∈ c :: text, (d != '\n') = true := by
          intro d mem
          have other : d ≠ '\n' := fun same => ended (same ▸ mem)
          simpa using other
        have none : (c :: text).contains '\n' = false := by simpa using ended
        dsimp only
        rw [List.takeWhile_eq_self_iff.mpr unended, none]
        rfl

/-- A reply that is accepted grants the request. -/
theorem granted_of_checkResponse {reply : Bytes} (checked : checkResponse reply = .ok ()) :
    Granted reply := by
  unfold checkResponse at checked
  split at checked
  · cases checked
  rename_i text decoded
  split at checked
  · cases checked
  rename_i line first
  dsimp only at checked
  split at checked
  · cases checked
  rename_i http
  rw [not_not] at http
  split at checked
  · cases checked
  rename_i code number
  split at checked
  · rename_i success
    rw [firstLine_eq] at first
    rcases fields : splitWhitespace line with _ | ⟨version, _ | ⟨status, more⟩⟩
    · rw [fields] at http
      exact absurd http (by decide)
    · rw [fields] at number
      cases number
    · rw [fields] at http number
      exact .intro (fromUtf8_eq_some_iff.mp decoded) first fields http number success
  · cases checked

/-- A handshake that succeeds has taken a reply that grants the request, up to the first empty
line. -/
theorem handshakeStream_takes (shaken : handshakeStream target session = (.ok (), session')) :
    ∃ head, FirstAt HttpConnect.headerEnd session.incoming head session'.incoming ∧
      (head ++ HttpConnect.headerEnd).length ≤ maxHttpResponseHead ∧
      Granted (head ++ HttpConnect.headerEnd) := by
  obtain ⟨u, s₁, sent, after⟩ := IoM.bind_eq_ok.mp shaken
  cases sent
  obtain ⟨reply, s₂, read, lifted⟩ := IoM.bind_eq_ok.mp after
  obtain ⟨checked, same⟩ := HttpConnect.lift_eq_ok lifted
  have fresh : ∀ front rest, ([] : Bytes).dropLast ≠ front ++ (HttpConnect.headerEnd ++ rest) := by
    intro front rest no
    have size := congrArg List.length no
    simp [HttpConnect.headerEnd] at size
  obtain ⟨more, grown, taken, bound, ended, clean⟩ := readHttpResponseHead_takes fresh read
  obtain ⟨head, rfl⟩ := ended
  rw [List.nil_append] at grown
  rw [← grown] at taken
  change session.incoming = _ at taken
  rw [← same, List.append_assoc] at taken
  exact ⟨head, .of_front taken clean, by simpa using bound, granted_of_checkResponse checked⟩

end Protocol

/-- However the proxy's bytes are cut into reads: a SOCKS5 handshake that succeeds has taken the
method reply and one reply that grants the request, with its bound address and port; an HTTP CONNECT
handshake that succeeds has taken the bytes up to the first empty line, at most 16384, and these
grant the request. What follows is left for the tunnel. -/
theorem handshakes_take_the_reply (target : Target) (session session' : ByteStream) :
    (Socks5Protocol.handshakeStream target session = (.ok (), session') →
      ∃ reply, Socks5Protocol.Granted reply ∧ session.incoming = reply ++ session'.incoming) ∧
    (Protocol.handshakeStream target session = (.ok (), session') →
      ∃ head, FirstAt HttpConnect.headerEnd session.incoming head session'.incoming ∧
        (head ++ HttpConnect.headerEnd).length ≤ Protocol.maxHttpResponseHead ∧
          Protocol.Granted (head ++ HttpConnect.headerEnd)) :=
  ⟨Socks5Protocol.handshakeStream_takes, Protocol.handshakeStream_takes⟩

def sampleDestination : Target := ⟨.ip (.v4 ⟨192, 0, 2, 1⟩), 80, httpPort_ne_zero⟩

/-- The replies of two proxies, each with two bytes of the tunnel behind it. -/
theorem handshakes_take_the_reply_example :
    (∃ reply, Socks5Protocol.Granted reply ∧
      ([5, 0, 5, 0, 0, 3, 1, 97, 0, 80] ++ [7, 8] : Bytes) = reply ++ [7, 8]) ∧
    ∃ head, FirstAt HttpConnect.headerEnd
      (utf8 "HTTP/1.1 200 OK\r\n\r\n".toList ++ [7, 8]) head [7, 8] ∧
      (head ++ HttpConnect.headerEnd).length ≤ Protocol.maxHttpResponseHead ∧
        Protocol.Granted (head ++ HttpConnect.headerEnd) := by
  have socks :
    Socks5Protocol.handshakeStream sampleDestination
      ⟨[5, 0, 5, 0, 0, 3, 1, 97, 0, 80] ++ [7, 8], [3], none, []⟩ =
      (.ok (), ⟨[7, 8], [3], none, [5, 1, 0, 5, 1, 0, 1, 192, 0, 2, 1, 0, 80]⟩) := by decide +kernel
  have http :
    Protocol.handshakeStream sampleDestination
      ⟨utf8 "HTTP/1.1 200 OK\r\n\r\n".toList ++ [7, 8], [3], none, []⟩ =
      (.ok (), ⟨[7, 8], [3], none, utf8 (Protocol.connectRequest sampleDestination)⟩) := by
        decide +kernel
  exact ⟨(handshakes_take_the_reply _ _ _).1 socks, (handshakes_take_the_reply _ _ _).2 http⟩

/-! ### The programs of the connector -/

/-- A carrier that is the stream: what it answers, and what is left of it. -/
inductive OnCarrier {η : Type} : HandlerEvent η → ByteStream → ByteStream → Prop where
  | readExact (count : Nat) (s : ByteStream) :
      OnCarrier ⟨.readExact .remote count, (ByteStream.readExact count s).1⟩ s
        (ByteStream.readExact count s).2
  | writeAll (bytes : Bytes) (s : ByteStream) :
      OnCarrier ⟨.writeAll .remote bytes, (ByteStream.writeAll bytes s).1⟩ s
        (ByteStream.writeAll bytes s).2
  | flush (s : ByteStream) : OnCarrier ⟨.flush .remote, .ok ()⟩ s s

variable {η α β : Type}

/-- On a carrier the program does what the computation does on the stream. -/
def Performs (p : Handler η α) (x : IoM ByteStream α) : Prop :=
  ∀ s result s', Prog.Ends OnCarrier p s result s' ↔ x s = (result, s')

namespace Performs

theorem pure (a : α) : Performs (Pure.pure a : Handler η α) (Pure.pure a) := by
  intro s result s'
  refine Prog.Ends.done_iff.trans ?_
  constructor
  · rintro ⟨rfl, rfl⟩
    rfl
  · intro ends
    cases ends
    exact ⟨rfl, rfl⟩

theorem lift (outcome : Except IoError α) :
    Performs (Attempt.lift outcome : Handler η α) (IoM.lift outcome) := by
  intro s result s'
  refine Prog.Ends.done_iff.trans ?_
  constructor
  · rintro ⟨rfl, rfl⟩
    cases result <;> rfl
  · intro ends
    cases outcome <;> cases ends <;> exact ⟨rfl, rfl⟩

theorem fail (e : IoError) : Performs (Attempt.fail e : Handler η α) (IoM.fail e) := lift (.error e)

theorem readExact (count : Nat) :
    Performs (Handler.readExact .remote count : Handler η Bytes) (ByteStream.readExact count) := by
  intro s result s'
  constructor
  · intro ends
    cases ends with
    | act answer first rest =>
        obtain ⟨rfl, rfl⟩ := Prog.Ends.done_iff.mp rest
        cases first
        rfl
  · intro read
    obtain rfl : (ByteStream.readExact count s).1 = result := congrArg Prod.fst read
    obtain rfl : (ByteStream.readExact count s).2 = s' := congrArg Prod.snd read
    exact .act _ (.readExact count s) (.done _ _)

theorem writeAll (bytes : Bytes) :
    Performs (Handler.writeAll .remote bytes : Handler η Unit) (ByteStream.writeAll bytes) := by
  intro s result s'
  constructor
  · intro ends
    cases ends with
    | act answer first rest =>
        obtain ⟨rfl, rfl⟩ := Prog.Ends.done_iff.mp rest
        cases first
        rfl
  · intro written
    cases written
    exact .act _ (.writeAll bytes s) (.done _ _)

theorem flush : Performs (Handler.flush .remote : Handler η Unit) (Pure.pure ()) := by
  intro s result s'
  constructor
  · intro ends
    cases ends with
    | act answer first rest =>
        obtain ⟨rfl, rfl⟩ := Prog.Ends.done_iff.mp rest
        cases first
        rfl
  · intro flushed
    cases flushed
    exact .act _ (.flush s) (.done _ _)

theorem bind {p : Handler η α} {x : IoM ByteStream α} {f : α → Handler η β}
    {g : α → IoM ByteStream β}
    (first : Performs p x) (next : ∀ a, Performs (f a) (g a)) : Performs (p >>= f) (x >>= g) := by
  intro s result s''
  refine (Prog.Ends.bind_iff (p := p) (f := Attempt.follow f)).trans ?_
  constructor
  · rintro ⟨outcome, s', ends, rest⟩
    have done := (first s outcome s').mp ends
    cases outcome with
    | ok a =>
        rw [IoM.bind_of_ok done]
        exact (next a s' result s'').mp rest
    | error e =>
        obtain ⟨rfl, rfl⟩ := Prog.Ends.done_iff.mp rest
        exact IoM.bind_of_error done
  · intro done
    match outcome : x s with
    | (.ok a, s') =>
        rw [IoM.bind_of_ok outcome] at done
        exact ⟨.ok a, s', (first s _ _).mpr outcome, (next a s' result s'').mpr done⟩
    | (.error e, s') =>
        rw [IoM.bind_of_error outcome] at done
        cases done
        exact ⟨.error e, _, (first s _ _).mpr outcome, .done _ _⟩

/-- A flush is not seen on the stream. -/
theorem flush_bind {f : Unit → Handler η α} {x : IoM ByteStream α} (next : Performs (f ()) x) :
    Performs (Handler.flush .remote >>= f) x :=
  flush.bind fun _ => next

theorem writeAll_flush (bytes : Bytes) :
    Performs (Handler.writeAll .remote bytes >>= fun _ => Handler.flush .remote : Handler η Unit)
      (ByteStream.writeAll bytes) :=
  (writeAll bytes).bind fun _ => flush

end Performs

theorem Socks5Protocol.performs_discardSocksAddress (addressType : UInt8) :
    Performs (Remote.discardSocksAddress addressType : Handler η Unit)
      (discardSocksAddress addressType) := by
  unfold Remote.discardSocksAddress discardSocksAddress
  split
  · exact (Performs.readExact 4).bind fun _ => .pure ()
  split
  · exact (Performs.readExact 1).bind fun _ => (Performs.readExact _).bind fun _ => .pure ()
  split
  · exact (Performs.readExact 16).bind fun _ => .pure ()
  · exact .fail _

theorem Socks5Protocol.performs_readReply :
    Performs (Remote.readReply : Handler η Unit) readReply := by
  apply (Performs.readExact 4).bind
  intro reply
  split
  · exact .fail _
  split
  · exact .fail _
  · exact (performs_discardSocksAddress _).bind fun _ =>
      (Performs.readExact 2).bind fun _ => .pure ()

theorem Socks5Protocol.performs_handshakeStream (target : Target) :
    Performs (Remote.handshakeStream target : Handler η Unit) (handshakeStream target) := by
  refine (Performs.writeAll greeting).bind fun _ => .flush_bind ?_
  apply (Performs.readExact 2).bind
  intro method
  split
  · exact .fail _
  · refine (Performs.lift (connectRequest target)).bind fun request => ?_
    exact (Performs.writeAll request).bind fun _ => .flush_bind performs_readReply

/-- The pieces of a request are written one behind the other. -/
theorem Protocol.performs_writePieces (pieces : List Str) :
    Performs (Remote.writePieces pieces : Handler η Unit)
      (ByteStream.writeAll (utf8 pieces.flatten)) := by
  induction pieces with
  | nil =>
      have nothing : ByteStream.writeAll (utf8 ([] : List Str).flatten) = Pure.pure () := by
        funext s
        simp [ByteStream.writeAll, utf8]
      rw [nothing]
      exact .pure ()
  | cons piece pieces ih =>
      have both : ByteStream.writeAll (utf8 (piece :: pieces).flatten) =
          ByteStream.writeAll (utf8 piece) >>= fun _ =>
              ByteStream.writeAll (utf8 pieces.flatten) := by
        funext s
        have first : ByteStream.writeAll (utf8 piece) s =
            (.ok (), { s with outgoing := s.outgoing ++ utf8 piece }) := rfl
        rw [IoM.bind_of_ok first, List.flatten_cons, utf8_append]
        simp only [ByteStream.writeAll, List.append_assoc]
      rw [both]
      exact (Performs.writeAll (utf8 piece)).bind fun _ => ih

theorem Protocol.performs_readHttpResponseHead (remaining : Nat) (head : Bytes) :
    Performs (Remote.readHttpResponseHead remaining head : Handler η Bytes)
      (readHttpResponseHead remaining head) := by
  induction remaining generalizing head with
  | zero =>
      unfold Remote.readHttpResponseHead readHttpResponseHead
      split
      · exact .pure head
      · exact .fail _
  | succ remaining ih =>
      unfold Remote.readHttpResponseHead readHttpResponseHead
      split
      · exact .pure head
      · exact (Performs.readExact 1).bind fun byte => ih (head ++ byte)

theorem Protocol.performs_handshakeStream (target : Target) :
    Performs (Remote.handshakeStream target : Handler η Unit) (handshakeStream target) := by
  have written := performs_writePieces (η := η) (requestPieces target)
  rw [requestPieces_flatten] at written
  refine written.bind fun _ => .flush_bind ?_
  exact (performs_readHttpResponseHead _ _).bind fun head => .lift (checkResponse head)

theorem Trojan.performs_handshakeStream (verifier : TrojanVerifier) (target : Target) :
    Performs (Remote.handshakeStream verifier target : Handler η Unit)
      (IoM.lift (encodeConnectRequest verifier target) >>= ByteStream.writeAll) := by
  exact (Performs.lift _).bind fun request => .writeAll_flush request

/-- A handshake of the connector that succeeds on a carrier has taken what the proxy replies and not
a byte more: a granting reply of a SOCKS5 or an HTTP proxy, nothing of a Trojan one, to which it has
written its request. -/
theorem OutboundProtocol.handshake_leaves_tunnel (protocol : OutboundProtocol)
    (ends : Prog.Ends OnCarrier (protocol.handshakeStream target : Handler η Unit) session
      (.ok ()) session') :
    match protocol with
    | .socks5 =>
        ∃ reply, Socks5Protocol.Granted reply ∧ session.incoming = reply ++ session'.incoming
    | .httpConnect =>
        ∃ head, FirstAt HttpConnect.headerEnd session.incoming head session'.incoming ∧
          Protocol.Granted (head ++ HttpConnect.headerEnd)
    | .trojan verifier =>
        ∃ request, Trojan.encodeConnectRequest verifier target = .ok request ∧
          session' = { session with outgoing := session.outgoing ++ request } := by
  cases protocol with
  | socks5 =>
      exact Socks5Protocol.handshakeStream_takes
        ((Socks5Protocol.performs_handshakeStream target _ _ _).mp ends)
  | httpConnect =>
      obtain ⟨head, first, -, granted⟩ :=
        Protocol.handshakeStream_takes ((Protocol.performs_handshakeStream target _ _ _).mp ends)
      exact ⟨head, first, granted⟩
  | trojan verifier =>
      have done := (Trojan.performs_handshakeStream verifier target _ _ _).mp ends
      obtain ⟨request, s, lifted, written⟩ := IoM.bind_eq_ok.mp done
      obtain ⟨encoded, rfl⟩ := HttpConnect.lift_eq_ok lifted
      cases written
      exact ⟨request, encoded, rfl⟩

end Commeatus.Daemon
