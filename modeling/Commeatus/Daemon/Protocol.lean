import Commeatus.Daemon.Inbound

/-!
The HTTP CONNECT outbound (`daemon/src/protocol.rs`): the request it writes for
a target, the reply it reads back, and whether the daemon's own HTTP inbound
would read the request as written.
-/

namespace Commeatus.Daemon.Protocol

open Commeatus.Lib Commeatus.Core

def maxHttpResponseHead : Nat := 16 * 1024

/-- `target_authority`. -/
def targetAuthority (target : Target) : Str :=
  match target.host with
  | .ip (.v4 address) => address.display ++ ':' :: decimal target.port.toNat
  | .ip (.v6 address) => '[' :: address.display ++ ']' :: ':' :: decimal target.port.toNat
  | .domain domain => domain ++ ':' :: decimal target.port.toNat

/-- The text that `handshake_stream` writes. -/
def connectRequest (target : Target) : Str :=
  "CONNECT ".toList ++ targetAuthority target ++ " HTTP/1.1\r\nHost: ".toList ++
    targetAuthority target ++ "\r\nProxy-Connection: Keep-Alive\r\n\r\n".toList

/-- `read_http_response_head`: byte by byte up to the empty line. `remaining` is what the size
limit still allows. -/
def readHttpResponseHead : (remaining : Nat) → (head : Bytes) → IoM ByteStream Bytes
  | 0, head =>
      if HttpConnect.headerEnd <:+ head then pure head
      else IoM.fail ⟨.invalidData, "upstream HTTP CONNECT response header is too large"⟩
  | remaining + 1, head =>
      if HttpConnect.headerEnd <:+ head then pure head
      else do
        let byte ← ByteStream.readExact 1
        readHttpResponseHead remaining (head ++ byte)

/-- `text.lines().next()`. -/
def firstLine (text : Str) : Option Str :=
  match text with
  | [] => none
  | _ =>
      let line := text.takeWhile (· != '\n')
      if text.contains '\n' && line.getLast? == some '\r' then some line.dropLast else some line

/-- The check of the status line of a reply. -/
def checkResponse (head : Bytes) : Except IoError Unit :=
  match fromUtf8 head with
  | none => .error ⟨.invalidData, "upstream HTTP CONNECT response is not UTF-8"⟩
  | some text =>
      match firstLine text with
      | none => .error ⟨.invalidData, "upstream HTTP CONNECT response has no status line"⟩
      | some statusLine =>
          let fields := splitWhitespace statusLine
          if ¬ "HTTP/1.".toList <+: fields.getD 0 [] then
            .error ⟨.invalidData, "upstream HTTP CONNECT response is not HTTP/1.x"⟩
          else
            match parseUnsigned 65535 (fields.getD 1 []) with
            | none => .error ⟨.invalidData, "upstream HTTP CONNECT status is invalid"⟩
            | some status =>
                if 200 ≤ status ∧ status < 300 then .ok ()
                else .error ⟨.connectionRefused,
                  "upstream HTTP CONNECT failed with status " ++ String.ofList (decimal status)⟩

/-- `HttpConnectProtocol::handshake_stream`. -/
def handshakeStream (target : Target) : IoM ByteStream Unit := do
  ByteStream.writeAll (utf8 (connectRequest target))
  let head ← readHttpResponseHead maxHttpResponseHead []
  IoM.lift (checkResponse head)

/-! ### The request read back -/

/-- A name that an authority can carry: it survives the reader's splitting at white space, brackets
and colons, and is not taken for an address. -/
def PlainAuthority (target : Target) : Prop :=
  match target.host with
  | .ip _ => True
  | .domain d => (∀ c ∈ d, isWhitespace c = false) ∧ ':' ∉ d ∧ d.head? ≠ some '[' ∧
      IpAddr.parse d = none

/-- Whatever the proxy answers, the bytes a handshake writes are a request that the daemon's own
inbound reads as the target, to the last byte and however it is cut into reads. -/
def RequestRoundTrips (target : Target) : Prop :=
  ∀ session : ByteStream, ∃ request,
    (handshakeStream target session).2.outgoing = session.outgoing ++ request ∧
      ∀ s : ByteStream, s.incoming = request →
        ∃ s', HttpConnect.readRequest s = (.ok (target, []), s') ∧ s'.incoming = []

theorem readHttpResponseHead_outgoing (remaining : Nat) (head : Bytes) :
    IoM.Keeps ByteStream.outgoing (readHttpResponseHead remaining head) := by
  induction remaining generalizing head with
  | zero =>
      unfold readHttpResponseHead
      split <;> exact fun s => rfl
  | succ remaining ih =>
      unfold readHttpResponseHead
      split
      · exact fun s => rfl
      · exact (ByteStream.readExact_outgoing 1).bind fun byte => ih (head ++ byte)

/-- A handshake writes its request and nothing else. -/
theorem handshakeStream_outgoing (target : Target) (s : ByteStream) :
    (handshakeStream target s).2.outgoing = s.outgoing ++ utf8 (connectRequest target) := by
  have written : ByteStream.writeAll (utf8 (connectRequest target)) s =
      (.ok (), { s with outgoing := s.outgoing ++ utf8 (connectRequest target) }) := rfl
  unfold handshakeStream
  rw [IoM.bind_of_ok written]
  exact (readHttpResponseHead_outgoing _ _).bind (fun head => IoM.Keeps.lift _ _) _

theorem isWhitespace_of_isAddressChar {c : Char} (h : isAddressChar c = true) :
    isWhitespace c = false := by
  have ascii := isAddressChar_ascii h
  have all : ∀ n < 128, isAddressChar (Char.ofNat n) = true →
      isWhitespace (Char.ofNat n) = false := by
    decide
  have := all c.toNat ascii
  rw [Char.ofNat_toNat] at this
  exact this h

theorem notMem_decimal {c : Char} (notDigit : isDigitOf 10 c = false)
    (n : Nat) : c ∉ decimal n := by
  intro mem
  rw [isDigitOf_of_mem_decimal mem] at notDigit
  cases notDigit

theorem parsePort_decimal {port : UInt16} (ne : port ≠ 0) :
    HttpConnect.parsePort (decimal port.toNat) = .ok port := by
  have small := port.toNat_lt
  have positive : port.toNat ≠ 0 := fun zero => ne (UInt16.toNat_inj.mp zero)
  simp [HttpConnect.parsePort, parseUnsigned_decimal (show port.toNat ≤ 65535 by omega), positive]

/-- The host text of an authority whose host is not bracketed. -/
theorem authorityHost_append {host : Str} (noBracket : host.head? ≠ some '[') (port : Nat) :
    HttpConnect.authorityHost (host ++ ':' :: decimal port) = some host := by
  unfold HttpConnect.authorityHost
  split
  · rename_i rest eq
    cases host with
    | nil => cases eq
    | cons c host =>
        cases eq
        exact absurd rfl noBracket
  · rw [rsplitOnce_append (notMem_decimal (by decide) port)]
    rfl

/-- An unbracketed authority is read through its host text. -/
theorem parseAuthority_append {host : Str} {port : UInt16} (ne : host ≠ []) (noColon : ':' ∉ host)
    (noBracket : host.head? ≠ some '[') (positive : port ≠ 0) :
    HttpConnect.parseAuthority (host ++ ':' :: decimal port.toNat) =
      match IpAddr.parse host with
      | some address => Target.new (.ip address) port
      | none =>
          if (toAsciiLowercase (trimEndMatches '.' host)).isEmpty ||
              decide (253 < byteLen (toAsciiLowercase (trimEndMatches '.' host))) then
            .error (HttpConnect.invalidData "invalid CONNECT domain")
          else Target.new (.domain (toAsciiLowercase (trimEndMatches '.' host))) port := by
  unfold HttpConnect.parseAuthority
  split
  · rename_i rest eq
    cases host with
    | nil => exact absurd rfl ne
    | cons c host =>
        cases eq
        exact absurd rfl noBracket
  · rw [rsplitOnce_append (notMem_decimal (by decide) port.toNat)]
    dsimp only
    have accepted : (host.isEmpty || host.contains ':') = false := by simp [ne, noColon]
    rw [accepted, parsePort_decimal positive]
    cases IpAddr.parse host with
    | some address => rfl
    | none =>
        by_cases bad : ((toAsciiLowercase (trimEndMatches '.' host)).isEmpty ||
            decide (253 < byteLen (toAsciiLowercase (trimEndMatches '.' host)))) = true
        · simp only [bad, Bool.false_eq_true, if_true, if_false]
        · simp only [bad, Bool.false_eq_true, if_false]

theorem parseAuthority_bracketed {address : Ipv6Addr} {port : UInt16} (positive : port ≠ 0) :
    HttpConnect.parseAuthority ('[' :: address.display ++ ']' :: ':' :: decimal port.toNat) =
      Target.new (.ip (.v6 address)) port := by
  have noBracket : ']' ∉ address.display := by
    intro mem
    have : isAddressChar ']' = true := Ipv6Addr.mem_display mem
    exact absurd this (by decide)
  have noColon : ':' ∉ decimal port.toNat := notMem_decimal (by decide) port.toNat
  have parsed : IpAddr.parse address.display = some (.v6 address) :=
    IpAddr.parse_display (.v6 address)
  rw [List.cons_append, HttpConnect.parseAuthority, splitOnce_append noBracket]
  simp [noColon, parsed, IpAddr.isIpv6, parsePort_decimal positive]

/-- The authority of a plain target names that target. -/
theorem parseAuthority_targetAuthority {target : Target}
    (name : ∀ d, target.host = .domain d → InboundName d) (plain : PlainAuthority target) :
    HttpConnect.parseAuthority (targetAuthority target) = .ok target := by
  obtain ⟨host, port, positive⟩ := target
  cases host with
  | ip address =>
      cases address with
      | v4 address =>
          have char : ∀ c ∈ address.display, c ≠ ':' ∧ c ≠ '[' := by
            intro c mem
            rcases Ipv4Addr.mem_display mem with digit | rfl
            · constructor
              · rintro rfl
                exact absurd digit (by decide)
              · rintro rfl
                exact absurd digit (by decide)
            · decide
          have noColon : ':' ∉ address.display := fun mem => (char _ mem).1 rfl
          have noBracket : address.display.head? ≠ some '[' :=
            fun first => (char _ (List.mem_of_mem_head? first)).2 rfl
          have nonempty : address.display ≠ [] := by simp [Ipv4Addr.display]
          have parsed : IpAddr.parse address.display = some (.v4 address) :=
            IpAddr.parse_display (.v4 address)
          rw [targetAuthority, parseAuthority_append nonempty noColon noBracket positive, parsed]
          exact Target.new_self ⟨.ip (.v4 address), port, positive⟩
      | v6 address =>
          rw [targetAuthority, parseAuthority_bracketed positive]
          exact Target.new_self ⟨.ip (.v6 address), port, positive⟩
  | domain d =>
      obtain ⟨-, noColon, noBracket, notAddress⟩ := plain
      have inbound := name d rfl
      rw [targetAuthority, parseAuthority_append inbound.nonempty noColon noBracket positive,
        notAddress, inbound.noTrailingDot, inbound.lowercase]
      have accepted : (d.isEmpty || decide (253 < byteLen d)) = false := by
        simp [inbound.nonempty, inbound.short]
      simp only [accepted]
      exact Target.new_self ⟨.domain d, port, positive⟩

/-! A request in text: three lines and the empty one. -/

def requestLine (target : Target) : Str :=
  "CONNECT ".toList ++ (targetAuthority target ++ " HTTP/1.1".toList)

def hostLine (target : Target) : Str := "Host: ".toList ++ targetAuthority target

def keepAliveLine : Str := "Proxy-Connection: Keep-Alive".toList

def connectHead (target : Target) : Str :=
  requestLine target ++ '\r' :: '\n' :: (hostLine target ++ '\r' :: '\n' :: keepAliveLine)

theorem connectRequest_eq (target : Target) :
    connectRequest target = connectHead target ++ ['\r', '\n', '\r', '\n'] := by
  have line : " HTTP/1.1\r\nHost: ".toList =
      " HTTP/1.1".toList ++ '\r' :: '\n' :: "Host: ".toList := by simp
  have last : "\r\nProxy-Connection: Keep-Alive\r\n\r\n".toList =
      '\r' :: '\n' :: "Proxy-Connection: Keep-Alive".toList ++ ['\r', '\n', '\r', '\n'] := by simp
  unfold connectRequest connectHead requestLine hostLine keepAliveLine
  rw [line, last]
  simp only [List.append_assoc, List.cons_append]

/-- The fixed texts around an authority have no return and a known length. -/
theorem literal_noReturn :
    '\r' ∉ "CONNECT ".toList ∧ '\r' ∉ " HTTP/1.1".toList ∧ '\r' ∉ "Host: ".toList ∧
      '\r' ∉ keepAliveLine := by
  unfold keepAliveLine
  simp

theorem literal_byteLen :
    byteLen "CONNECT ".toList = 8 ∧ byteLen " HTTP/1.1".toList = 9 ∧ byteLen "Host: ".toList = 6 ∧
      byteLen keepAliveLine = 28 ∧ '\r'.utf8Size = 1 ∧ '\n'.utf8Size = 1 := by
  unfold keepAliveLine
  simp [byteLen, utf8, String.utf8EncodeChar, Char.utf8Size]

theorem notMem_lines {target : Target} (noReturn : '\r' ∉ targetAuthority target) :
    '\r' ∉ requestLine target ∧ '\r' ∉ hostLine target := by
  obtain ⟨connect, version, host, -⟩ := literal_noReturn
  unfold requestLine hostLine
  simp only [List.mem_append, not_or]
  exact ⟨⟨connect, noReturn, version⟩, host, noReturn⟩

theorem findHeaderEnd_connectRequest {target : Target} (noReturn : '\r' ∉ targetAuthority target) :
    HttpConnect.findHeaderEnd (utf8 (connectRequest target)) =
      some (byteLen (connectHead target)) := by
  obtain ⟨line₁, line₂⟩ := notMem_lines noReturn
  obtain ⟨-, -, -, line₃⟩ := literal_noReturn
  -- Each line starts with a letter, so no `\r\n\r\n` stands between two of them.
  obtain ⟨third, last⟩ : ∃ third, keepAliveLine ++ ['\r', '\n', '\r', '\n'] = 'P' :: third := by
    unfold keepAliveLine
    simp
  obtain ⟨second, middle⟩ : ∃ second, hostLine target ++ '\r' :: '\n' :: 'P' :: third =
      'H' :: second := by
    unfold hostLine
    simp
  have shape : connectRequest target = requestLine target ++ '\r' :: '\n' :: 'H' :: second := by
    rw [← middle, ← last, connectRequest_eq]
    unfold connectHead
    simp only [List.append_assoc, List.cons_append]
  rw [shape, HttpConnect.findHeaderEnd_textLine line₁ (by decide), ← middle,
    HttpConnect.findHeaderEnd_textLine line₂ (by decide), ← last,
    HttpConnect.findHeaderEnd_textLast line₃]
  obtain ⟨-, -, -, -, return_, newline⟩ := literal_byteLen
  unfold connectHead
  simp only [Option.map_some, byteLen_append, byteLen_cons, return_, newline, Option.some.injEq]
  omega

/-- The header of a request names its authority. -/
theorem parseRequestHead_connectHead {target : Target} (ne : targetAuthority target ≠ [])
    (noSpace : ∀ c ∈ targetAuthority target, isWhitespace c = false) :
    HttpConnect.parseRequestHead (utf8 (connectHead target)) =
      HttpConnect.parseAuthority (targetAuthority target) := by
  have noReturn : '\r' ∉ targetAuthority target := fun mem => absurd (noSpace _ mem) (by decide)
  have method : ∀ c ∈ "CONNECT".toList, isWhitespace c = false := by simp [isWhitespace]
  have version : ∀ c ∈ "HTTP/1.1".toList, isWhitespace c = false := by simp [isWhitespace]
  have fields : splitWhitespace (requestLine target) =
      ["CONNECT".toList, targetAuthority target, "HTTP/1.1".toList] := by
    have first : "CONNECT ".toList = "CONNECT".toList ++ [' '] := by simp
    have last : " HTTP/1.1".toList = ' ' :: "HTTP/1.1".toList := by simp
    unfold requestLine
    rw [first, last, List.append_assoc, List.singleton_append,
      splitWhitespace_cons_field (by simp) method (by decide),
      splitWhitespace_cons_field ne noSpace (by decide), splitWhitespace_field (by simp) version]
  have accepted : ¬ (([] : List Str) ≠ [] ∨ "CONNECT".toList ≠ "CONNECT".toList ∨
      ¬ "HTTP/1.".toList <+: "HTTP/1.1".toList) := by simp
  unfold HttpConnect.parseRequestHead
  rw [fromUtf8_utf8]
  dsimp only
  unfold connectHead
  rw [firstCrlfLine_append (notMem_lines noReturn).1, fields]
  exact if_neg accepted

/-- A request whose authority has no white space is read as that authority. -/
theorem readRequest_connectRequest {target : Target} {s : ByteStream}
    (ne : targetAuthority target ≠ [])
    (noSpace : ∀ c ∈ targetAuthority target, isWhitespace c = false)
    (short : byteLen (targetAuthority target) ≤ 300)
    (incoming : s.incoming = utf8 (connectRequest target)) :
    ∃ s', HttpConnect.readRequest s =
        ((HttpConnect.parseAuthority (targetAuthority target)).map (·, []), s') ∧
      s'.incoming = [] := by
  have noReturn : '\r' ∉ targetAuthority target := fun mem => absurd (noSpace _ mem) (by decide)
  have split : utf8 (connectRequest target) = utf8 (connectHead target) ++
      HttpConnect.headerEnd := by
    rw [connectRequest_eq, utf8_append]
    rfl
  have whole : (utf8 (connectRequest target)).length = byteLen (connectHead target) + 4 := by
    rw [split, List.length_append]
    rfl
  have size : byteLen (connectHead target) ≤ 1000 := by
    obtain ⟨connect, version, host, keep, return_, newline⟩ := literal_byteLen
    unfold connectHead requestLine hostLine
    simp only [byteLen_append, byteLen_cons, connect, version, host, keep, return_, newline]
    omega
  have fits : (utf8 (connectRequest target)).length ≤ HttpConnect.maxHeaderBytes := by
    rw [whole, HttpConnect.maxHeaderBytes]
    omega
  obtain ⟨s', read, empty⟩ := HttpConnect.readRequest_whole (findHeaderEnd_connectRequest noReturn)
    whole fits incoming
  refine ⟨s', ?_, empty⟩
  have head : (utf8 (connectRequest target)).take (byteLen (connectHead target)) =
      utf8 (connectHead target) := by
    rw [split]
    exact List.take_left
  rw [read, head, parseRequestHead_connectHead ne noSpace]

/-! ### Which targets survive -/

theorem targetAuthority_ne_nil (target : Target) : targetAuthority target ≠ [] := by
  unfold targetAuthority
  split <;> simp

theorem isWhitespace_of_mem_decimal {n : Nat} {c : Char} (mem : c ∈ decimal n) :
    isWhitespace c = false :=
  isWhitespace_of_isAddressChar (isAddressChar_of_mem_decimal mem)

/-- White space in an authority is white space in its name. -/
theorem targetAuthority_noSpace {target : Target}
    (name : ∀ d, target.host = .domain d → ∀ c ∈ d, isWhitespace c = false) :
    ∀ c ∈ targetAuthority target, isWhitespace c = false := by
  obtain ⟨host, port, positive⟩ := target
  intro c mem
  cases host with
  | ip address =>
      cases address with
      | v4 address =>
          simp only [targetAuthority, List.mem_append, List.mem_cons] at mem
          rcases mem with inHost | rfl | inPort
          · rcases Ipv4Addr.mem_display inHost with digit | rfl
            · apply isWhitespace_of_isAddressChar
              simp [isAddressChar, isDigitOf_hex_of_decimal digit]
            · rfl
          · rfl
          · exact isWhitespace_of_mem_decimal inPort
      | v6 address =>
          simp only [targetAuthority, List.cons_append, List.mem_append, List.mem_cons] at mem
          rcases mem with rfl | inHost | rfl | rfl | inPort
          · rfl
          · exact isWhitespace_of_isAddressChar (Ipv6Addr.mem_display inHost)
          · rfl
          · rfl
          · exact isWhitespace_of_mem_decimal inPort
  | domain d =>
      simp only [targetAuthority, List.mem_append, List.mem_cons] at mem
      rcases mem with inHost | rfl | inPort
      · exact name d rfl c inHost
      · rfl
      · exact isWhitespace_of_mem_decimal inPort

theorem byteLen_addressText {text : Str} (chars : ∀ c ∈ text, isAddressChar c = true) :
    byteLen text = text.length :=
  byteLen_ascii fun c mem => isAddressChar_ascii (chars c mem)

theorem byteLen_targetAuthority {target : Target}
    (name : ∀ d, target.host = .domain d → byteLen d ≤ 253) :
    byteLen (targetAuthority target) ≤ 300 := by
  obtain ⟨host, port, positive⟩ := target
  have portSize : byteLen (decimal port.toNat) ≤ 5 := by
    have := port.toNat_lt
    rw [byteLen_addressText fun c mem => isAddressChar_of_mem_decimal mem]
    exact length_decimal_le (by omega) (by omega)
  have colon : ':'.utf8Size = 1 := rfl
  have brackets : '['.utf8Size = 1 ∧ ']'.utf8Size = 1 := ⟨rfl, rfl⟩
  cases host with
  | ip address =>
      cases address with
      | v4 address =>
          have size := address.length_display
          have chars : ∀ c ∈ address.display, isAddressChar c = true := by
            intro c mem
            rcases Ipv4Addr.mem_display mem with digit | rfl
            · simp [isAddressChar, isDigitOf_hex_of_decimal digit]
            · rfl
          rw [← byteLen_addressText chars] at size
          simp only [targetAuthority, byteLen_append, byteLen_cons, colon]
          omega
      | v6 address =>
          have size := address.length_display
          rw [← byteLen_addressText fun c mem => Ipv6Addr.mem_display mem] at size
          simp only [targetAuthority, List.cons_append, byteLen_append, byteLen_cons, colon,
            brackets.1, brackets.2]
          omega
  | domain d =>
      have size := name d rfl
      simp only [targetAuthority, byteLen_append, byteLen_cons, colon]
      omega

/-- A name that was read from an authority has no white space. -/
theorem noSpace_of_readRequest {s s' : ByteStream} {target : Target} {rest : Bytes} {d : Str}
    (read : HttpConnect.readRequest s = (.ok (target, rest), s'))
    (isDomain : target.host = .domain d) :
    ∀ c ∈ d, isWhitespace c = false := by
  obtain ⟨authority, noSpace, parsed⟩ := HttpConnect.readRequest_authority read
  have host := HttpConnect.parseAuthority_host parsed
  rw [isDomain] at host
  cases host with
  | @domain text field unbracketed _ _ _ _ =>
      intro c mem
      obtain ⟨c', mem', rfl⟩ := List.mem_map.mp mem
      have inText : c' ∈ text := (trimEndMatches_initial '.' text).subset mem'
      have inAuthority : c' ∈ authority := by
        unfold HttpConnect.authorityHost at field
        split at field
        · exact absurd rfl unbracketed
        · obtain ⟨⟨host, port⟩, split, rfl⟩ := Option.map_eq_some_iff.mp field
          rw [(rsplitOnce_eq_some split).1]
          exact List.mem_append_left _ inText
      exact isWhitespace_toLower (noSpace c' inAuthority)

theorem plainAuthority_of_roundTrip {input : InboundInput} {target : Target}
    (accepted : input.accepts = some target) (roundTrip : RequestRoundTrips target) :
    PlainAuthority target := by
  obtain ⟨host, port, positive⟩ := target
  cases host with
  | ip address => trivial
  | domain d =>
      have inbound := InboundInput.inboundName accepted rfl
      obtain ⟨request, written, reads⟩ := roundTrip ⟨[], [], none, []⟩
      rw [handshakeStream_outgoing, List.append_cancel_left_eq] at written
      obtain ⟨s', read, -⟩ := reads ⟨request, [], none, []⟩ rfl
      have noSpace := noSpace_of_readRequest read rfl
      refine ⟨noSpace, ?_⟩
      -- Without white space the authority is read as written, so its host text is the name.
      have authoritySpace : ∀ c ∈ targetAuthority ⟨.domain d, port, positive⟩,
          isWhitespace c = false :=
        targetAuthority_noSpace fun d' eq => by cases eq; exact noSpace
      have size : byteLen (targetAuthority ⟨.domain d, port, positive⟩) ≤ 300 :=
        byteLen_targetAuthority fun d' eq => by cases eq; exact inbound.short
      obtain ⟨s'', whole, -⟩ := readRequest_connectRequest (targetAuthority_ne_nil _) authoritySpace
        size (s := ⟨request, [], none, []⟩) written.symm
      rw [read] at whole
      have parsed : HttpConnect.parseAuthority (targetAuthority ⟨.domain d, port, positive⟩) =
          .ok ⟨.domain d, port, positive⟩ := by
        cases result : HttpConnect.parseAuthority (targetAuthority ⟨.domain d, port, positive⟩) with
        | error e =>
            rw [result] at whole
            cases whole
        | ok target =>
            rw [result] at whole
            cases whole
            rfl
      have host := HttpConnect.parseAuthority_host parsed
      generalize isDomain : (⟨.domain d, port, positive⟩ : Target).host = host' at host
      cases host with
      | ip => cases isDomain
      | @domain text field unbracketed noColon notAddress _ _ =>
          have noBracket : d.head? ≠ some '[' := by
            intro first
            apply unbracketed
            simp [targetAuthority, first]
          have same : d = text := by
            have := authorityHost_append noBracket port.toNat
            exact Option.some.inj (this.symm.trans field)
          rw [same]
          exact ⟨noColon, same ▸ noBracket, notAddress⟩

/-- The request for a target that an inbound accepted survives the daemon's own reader exactly when
the name has no white space, colon or leading bracket and is not the text of an address. -/
theorem connect_request_round_trips_iff {input : InboundInput} {target : Target}
    (accepted : input.accepts = some target) :
    RequestRoundTrips target ↔ PlainAuthority target := by
  constructor
  · exact plainAuthority_of_roundTrip accepted
  · intro plain session
    have inbound : ∀ d, target.host = .domain d → InboundName d :=
      fun d isDomain => InboundInput.inboundName accepted isDomain
    have noSpace : ∀ d, target.host = .domain d → ∀ c ∈ d, isWhitespace c = false := by
      intro d isDomain
      unfold PlainAuthority at plain
      rw [isDomain] at plain
      exact plain.1
    refine ⟨utf8 (connectRequest target), handshakeStream_outgoing target session, ?_⟩
    intro s incoming
    obtain ⟨s', read, empty⟩ := readRequest_connectRequest (targetAuthority_ne_nil target)
      (targetAuthority_noSpace noSpace)
      (byteLen_targetAuthority fun d isDomain => (inbound d isDomain).short) incoming
    rw [parseAuthority_targetAuthority inbound plain] at read
    exact ⟨s', read, empty⟩

theorem connect_request_round_trips_example :
    RequestRoundTrips ⟨.domain "example.com".toList, 443, by decide⟩ :=
  (connect_request_round_trips_iff
    (show InboundInput.accepts (.httpAuthority "example.com:443".toList) =
      some ⟨.domain "example.com".toList, 443, by decide⟩ by decide)).mpr
    ⟨by simp [isWhitespace], by simp, by simp, by decide⟩

/-- The SOCKS5 packet `00 00 00 03 04 "a\r\nx" 00 50` puts a line end into the request. -/
theorem name_adds_header_line :
    ∃ target : Target,
      InboundInput.accepts (.socks5Packet [0, 0, 0, 3, 4, 97, 13, 10, 120, 0, 80]) = some target ∧
      targetAuthority target = ['a', '\r', '\n', 'x', ':', '8', '0'] ∧
      ¬ RequestRoundTrips target := by
  have accepted : InboundInput.accepts (.socks5Packet [0, 0, 0, 3, 4, 97, 13, 10, 120, 0, 80]) =
      some ⟨.domain ['a', '\r', '\n', 'x'], 80, by decide⟩ := by decide
  refine ⟨_, accepted, by decide, fun roundTrip => ?_⟩
  obtain ⟨noSpace, -⟩ := plainAuthority_of_roundTrip accepted roundTrip
  exact absurd (noSpace '\r' (by simp)) (by decide)

end Commeatus.Daemon.Protocol
