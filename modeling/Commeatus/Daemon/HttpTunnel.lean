import Commeatus.Daemon.HttpConnect

/-!
A tunnel over HTTP CONNECT (`daemon/src/http_connect.rs`).

A client may send what is meant for the tunnel together with its request, cut
into reads at any place. What was read past the request is written to the
remote before the relay starts, so the remote gets everything behind the
request head, once and in order.
-/

namespace Commeatus.Daemon.HttpConnect

open Commeatus.Lib Commeatus.Core

/-! ### The inbound -/

/-- What a connection depends on outside: opening the remote, and the errors that writing some bytes
to the client or to the remote ends with. -/
structure Outside where
  connectTcp : Endpoint → Target → Except IoError ByteStream
  clientFault : Bytes → Option IoError := fun _ => none
  remoteFault : Bytes → Option IoError := fun _ => none

def badRequest : Bytes :=
  utf8 "HTTP/1.1 400 Bad Request\r\nConnection: close\r\nContent-Length: 0\r\n\r\n".toList

def forbidden : Bytes :=
  utf8 "HTTP/1.1 403 Forbidden\r\nConnection: close\r\nContent-Length: 0\r\n\r\n".toList

def badGateway : Bytes :=
  utf8 "HTTP/1.1 502 Bad Gateway\r\nConnection: close\r\nContent-Length: 0\r\n\r\n".toList

def established : Bytes :=
  utf8 "HTTP/1.1 200 Connection Established\r\nProxy-Agent: Commeatus/0.6.0-alpha.1\r\n\r\n".toList

/-- `write_all`, or the error it ends with. -/
def write (fault : Bytes → Option IoError) (bytes : Bytes) : IoM ByteStream Unit :=
  match fault bytes with
  | some e => IoM.fail e
  | none => ByteStream.writeAll bytes

/-- How a connection goes on from `handle`: it ends, or the remote relays to the client. -/
inductive Handled where
  | failed (e : IoError) (client : ByteStream)
  | rejected (client : ByteStream)
  | relaying (remote client : ByteStream)

/-- The part of `handle` after the remote was opened. -/
def openTunnel (outside : Outside) (buffered : Bytes) (remote client : ByteStream) : Handled :=
  match write outside.clientFault established client with
  | (.error e, client) => .failed e client
  | (.ok (), client) =>
      if buffered = [] then .relaying remote client
      else
        match write outside.remoteFault buffered remote with
        | (.error e, _) => .failed e client
        | (.ok (), remote) => .relaying remote client

/-- `handle`, up to the relay. -/
def handle (outside : Outside) (runtime : Runtime) (id : FlowId) (client : ByteStream) : Handled :=
  match readRequest client with
  | (.error e, client) => .failed e (write outside.clientFault badRequest client).2
  | (.ok (target, buffered), client) =>
      match planAction runtime target .tcp id with
      | .reject _ =>
          match write outside.clientFault forbidden client with
          | (.error e, client) => .failed e client
          | (.ok (), client) => .rejected client
      | .route endpoint =>
          match outside.connectTcp endpoint target with
          | .error e => .failed e (write outside.clientFault badGateway client).2
          | .ok remote => openTunnel outside buffered remote client

/-- The uplink of the relay over TCP: what the remote is sent in the end. -/
def uplink (remote client : ByteStream) : Bytes := (ByteStream.copy client remote).2.2.outgoing

/-! ### Requests -/

/-- The head of a CONNECT request for the target. -/
inductive ConnectHead (head : Bytes) (target : Target) : Prop where
  | intro {text authority version : Str} (decoded : utf8 text = head)
      (line : splitWhitespace (firstCrlfLine text) = ["CONNECT".toList, authority, version])
      (http : "HTTP/1.".toList <+: version) (names : parseAuthority authority = .ok target)

theorem parseRequestHead_eq_ok_iff {head : Bytes} {target : Target} :
    parseRequestHead head = .ok target ↔ ConnectHead head target := by
  constructor
  · intro parsed
    unfold parseRequestHead at parsed
    split at parsed
    · cases parsed
    rename_i text decoded
    split at parsed
    · cases parsed
    · cases parsed
    · cases parsed
    rename_i method authority version more fields
    split at parsed
    · cases parsed
    rename_i connect
    simp only [not_or, not_not] at connect
    obtain ⟨rfl, rfl, http⟩ := connect
    exact .intro (fromUtf8_eq_some_iff.mp decoded) fields http parsed
  · rintro ⟨decoded, line, http, names⟩
    unfold parseRequestHead
    rw [fromUtf8_eq_some_iff.mpr decoded]
    dsimp only
    rw [line]
    dsimp only
    rw [if_neg (by simpa using http), names]

variable {client client' remote : ByteStream} {target : Target} {buffered head rest : Bytes}

theorem lift_eq_ok {α : Type} {result : Except IoError α} {a : α} {s s' : ByteStream}
    (lifted : IoM.lift result s = (.ok a, s')) : result = .ok a ∧ s' = s := by
  cases result with
  | error e => cases lifted
  | ok b =>
      cases lifted
      exact ⟨rfl, rfl⟩

/-- A request that was read is the head before the first empty line; the bytes behind it are in the
buffer or unread. -/
theorem readRequest_sound (read : readRequest client = (.ok (target, buffered), client')) :
    ∃ head rest, FirstAt headerEnd client.incoming head rest ∧ head.length + 4 ≤ maxHeaderBytes ∧
      ConnectHead head target ∧
      buffered ++ client'.incoming = rest := by
  unfold readRequest at read
  obtain ⟨⟨buffer, position⟩, client₁, filled, after⟩ := IoM.bind_eq_ok.mp read
  obtain ⟨target', client₂, lifted, ends⟩ := IoM.bind_eq_ok.mp after
  cases ends
  obtain ⟨parsed, same⟩ := lift_eq_ok lifted
  rw [← same] at filled
  obtain ⟨found, past, fits, kept⟩ := readHead_sound (Nat.zero_le _) filled
  obtain ⟨head, rest, first, rfl⟩ := findHeaderEnd_eq_some_iff.mp found
  rw [List.nil_append] at kept first
  have whole := first.split
  rw [← kept] at whole
  -- The buffer begins with the head and the empty line.
  have size : head.length + 4 ≤ buffer.length := past
  have front : buffer.take head.length = head := by
    rw [← @List.take_append_of_le_length _ buffer client'.incoming head.length (by omega),
      whole, List.take_left]
  have behind : buffer.drop (head.length + 4) ++ client'.incoming = rest := by
    rw [← List.drop_append_of_le_length size, whole, ← List.append_assoc]
    exact List.drop_left' (by simp [headerEnd])
  refine ⟨head, rest, first, Nat.le_trans past fits, parseRequestHead_eq_ok_iff.mp ?_, behind⟩
  rw [← front]
  exact parsed

/-- A request whose head ends within the limit is read. -/
theorem readRequest_complete (first : FirstAt headerEnd client.incoming head rest)
    (limit : head.length + 4 ≤ maxHeaderBytes)
    (connect : ConnectHead head target) :
    ∃ buffered client', readRequest client = (.ok (target, buffered), client') := by
  have found : findHeaderEnd ([] ++ client.incoming) = some head.length :=
    findHeaderEnd_eq_some_iff.mpr ⟨head, rest, first, rfl⟩
  obtain ⟨buffer, client₁, filled⟩ := readHead_finds found limit
  obtain ⟨-, past, -, same⟩ := readHead_sound (Nat.zero_le _) filled
  have front : buffer.take head.length = head := by
    rw [List.nil_append, first.split] at same
    rw [← @List.take_append_of_le_length _ buffer client₁.incoming head.length (by omega),
      same, List.take_left]
  have parsed : IoM.lift (parseRequestHead (buffer.take head.length)) client₁ =
      (.ok target, client₁) := by
    rw [front, parseRequestHead_eq_ok_iff.mpr connect]
    rfl
  exact ⟨_, client₁, IoM.bind_eq_ok.mpr ⟨_, _, filled, IoM.bind_eq_ok.mpr ⟨_, _, parsed, rfl⟩⟩⟩

/-! ### Tunnels -/

theorem write_eq_ok {fault : Bytes → Option IoError} {bytes : Bytes} {s s' : ByteStream} {u : Unit}
    (written : write fault bytes s = (.ok u, s')) :
    s' = { s with outgoing := s.outgoing ++ bytes } := by
  unfold write at written
  cases failing : fault bytes with
  | some e =>
      rw [failing] at written
      cases written
  | none =>
      rw [failing] at written
      cases written
      rfl

/-- Where a tunnel is opened, the remote has been sent what was buffered, and the client stream is
still unread. -/
theorem openTunnel_relaying {outside : Outside} {opened : ByteStream}
    (opens : openTunnel outside buffered opened client = .relaying remote client') :
    remote = { opened with outgoing := opened.outgoing ++ buffered } ∧
    client'.incoming = client.incoming := by
  unfold openTunnel at opens
  split at opens
  · cases opens
  rename_i client₁ established
  have unread : client₁.incoming = client.incoming := by rw [write_eq_ok established]
  split at opens
  · rename_i empty
    cases opens
    exact ⟨by rw [empty, List.append_nil], unread⟩
  · split at opens
    · cases opens
    · rename_i remote₁ forwarded
      cases opens
      exact ⟨write_eq_ok forwarded, unread⟩

/-- A relay starts for a request that was read, planned and connected. -/
theorem handle_relaying {outside : Outside} {runtime : Runtime} {id : FlowId}
    (relays : handle outside runtime id client = .relaying remote client') :
    ∃ target buffered client₁ endpoint opened, readRequest client =
      (.ok (target, buffered), client₁) ∧
      planAction runtime target .tcp id = .route endpoint ∧
      outside.connectTcp endpoint target = .ok opened ∧
        openTunnel outside buffered opened client₁ = .relaying remote client' := by
  unfold handle at relays
  split at relays
  · cases relays
  rename_i target buffered client₁ read
  split at relays
  · split at relays
    · cases relays
    · cases relays
  rename_i endpoint planned
  split at relays
  · cases relays
  rename_i opened connected
  exact ⟨target, buffered, client₁, endpoint, opened, read, planned, connected, relays⟩

/-- However the client's bytes are cut into reads: a request is read if and only if the first empty
line ends within the limit and what stands before it is the head of a CONNECT request; the target is
that of the head; and what was read past the empty line and what is still unread are together what
stands behind it. A tunnel that is opened brings the remote exactly that, behind what the remote had
been sent when it was opened. -/
theorem connect_framing (client : ByteStream) :
    ((∃ target buffered client', readRequest client = (.ok (target, buffered), client')) ↔
      ∃ head rest target, FirstAt headerEnd client.incoming head rest ∧
        head.length + 4 ≤ maxHeaderBytes ∧
        ConnectHead head target) ∧
    (∀ target buffered client', readRequest client = (.ok (target, buffered), client') →
      ∀ head rest, FirstAt headerEnd client.incoming head rest →
        (∀ target', ConnectHead head target' ↔ target' = target) ∧
          buffered ++ client'.incoming = rest) ∧
    ∀ outside runtime id remote client', handle outside runtime id client =
      .relaying remote client' →
      ∀ head rest, FirstAt headerEnd client.incoming head rest →
        ∃ target endpoint opened, ConnectHead head target ∧ planAction runtime target .tcp id =
          .route endpoint ∧
          outside.connectTcp endpoint target = .ok opened ∧
          uplink remote client' = opened.outgoing ++ rest := by
  refine ⟨⟨?_, ?_⟩, ?_, ?_⟩
  · rintro ⟨target, buffered, client', read⟩
    obtain ⟨head, rest, first, limit, connect, -⟩ := readRequest_sound read
    exact ⟨head, rest, target, first, limit, connect⟩
  · rintro ⟨head, rest, target, first, limit, connect⟩
    obtain ⟨buffered, client', read⟩ := readRequest_complete first limit connect
    exact ⟨target, buffered, client', read⟩
  · intro target buffered client' read head rest first
    obtain ⟨head', rest', first', -, connect, behind⟩ := readRequest_sound read
    obtain ⟨rfl, rfl⟩ := first.unique first'
    refine ⟨fun target' => ⟨fun connect' => ?_, fun same => same ▸ connect⟩, behind⟩
    have both :=
      (parseRequestHead_eq_ok_iff.mpr connect').symm.trans (parseRequestHead_eq_ok_iff.mpr connect)
    cases both
    rfl
  · intro outside runtime id remote client' relays head rest first
    obtain ⟨target, buffered, client₁, endpoint, opened, read, planned, connected, opens⟩ :=
      handle_relaying relays
    obtain ⟨head', rest', first', -, connect, behind⟩ := readRequest_sound read
    obtain ⟨rfl, rfl⟩ := first.unique first'
    obtain ⟨rfl, unread⟩ := openTunnel_relaying opens
    refine ⟨target, endpoint, opened, connect, planned, connected, ?_⟩
    obtain ⟨reader, -, copied⟩ :=
      ByteStream.copy_eq client' { opened with outgoing := opened.outgoing ++ buffered }
    unfold uplink
    rw [copied, unread, ← behind, List.append_assoc]

/-- The bytes of a request and of what is meant for the tunnel, in reads of five bytes. -/
def sampleClient : ByteStream where
  incoming := utf8 "CONNECT 192.0.2.1:80 HTTP/1.1\r\n\r\nearly".toList
  cuts := List.replicate 9 5

def sampleOutside : Outside where
  connectTcp := fun _ _ => .ok ⟨[], [], none, [7]⟩

def sampleRuntime : Runtime := ⟨.new [] (.route .direct)⟩

/-- Where nothing fails, the tunnel is opened. -/
theorem openTunnel_sample (buffered : Bytes) (remote client : ByteStream) :
    ∃ remote' client', openTunnel sampleOutside buffered remote client =
      .relaying remote' client' := by
  have answered : write sampleOutside.clientFault established client =
      (.ok (), { client with outgoing := client.outgoing ++ established }) := rfl
  unfold openTunnel
  rw [answered]
  dsimp only
  split
  · exact ⟨_, _, rfl⟩
  · exact ⟨_, _, rfl⟩

/-- What the client sent with its request reaches the remote, behind what the remote had been sent
before. -/
theorem connect_framing_example :
    ∃ remote client', handle sampleOutside sampleRuntime 0 sampleClient = .relaying remote client' ∧
    uplink remote client' = 7 :: utf8 "early".toList := by
  have found : findHeaderEnd sampleClient.incoming = some 29 := by decide +kernel
  have parsed : parseRequestHead (sampleClient.incoming.take 29) =
      .ok ⟨.ip (.v4 ⟨192, 0, 2, 1⟩), 80, by decide⟩ := by decide +kernel
  obtain ⟨head, rest, first, size⟩ := findHeaderEnd_eq_some_iff.mp found
  have isHead : head = sampleClient.incoming.take 29 := by rw [first.split, List.take_left' size]
  have isRest : rest = utf8 "early".toList := by
    have behind : sampleClient.incoming.drop 33 = rest := by
      rw [first.split, ← List.append_assoc, List.drop_left' (by simp [headerEnd, size])]
    rw [← behind]
    decide +kernel
  have connect := parseRequestHead_eq_ok_iff.mp (isHead ▸ parsed)
  obtain ⟨readable, -, tunnel⟩ := connect_framing sampleClient
  obtain ⟨target, buffered, client', read⟩ :=
    readable.mpr ⟨head, rest, _, first, by rw [size]; decide, connect⟩
  have planned : planAction sampleRuntime target .tcp 0 = .route .direct := rfl
  obtain ⟨remote, client'', opens⟩ := openTunnel_sample buffered ⟨[], [], none, [7]⟩ client'
  have relays : handle sampleOutside sampleRuntime 0 sampleClient = .relaying remote client'' := by
    unfold handle
    rw [read]
    dsimp only
    rw [planned]
    exact opens
  obtain ⟨_, _, opened, -, -, connected, sent⟩ := tunnel _ _ _ _ _ relays head rest first
  cases connected
  exact ⟨remote, client'', relays, by rw [sent, isRest]; rfl⟩

end Commeatus.Daemon.HttpConnect
