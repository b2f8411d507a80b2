import Commeatus.Daemon.Proxy
import Commeatus.Lib.Delimiter

/-!
The HTTP CONNECT inbound (`daemon/src/http_connect.rs`): reading the request
head from a segmented stream and the authority grammar.
-/

namespace Commeatus.Daemon.HttpConnect

open Commeatus.Lib Commeatus.Core

def maxHeaderBytes : Nat := 16 * 1024

def invalidData (message : String) : IoError := ⟨.invalidData, message⟩

/-- `parse_port`. -/
def parsePort (value : Str) : Except IoError UInt16 :=
  match parseUnsigned 65535 value with
  | none => .error (invalidData "invalid CONNECT port")
  | some port =>
      if port = 0 then .error (invalidData "CONNECT port must not be zero")
      else .ok (UInt16.ofNat port)

/-- `parse_authority`. -/
def parseAuthority (authority : Str) : Except IoError Target :=
  match authority with
  | '[' :: rest =>
      match splitOnce ']' rest with
      | none => .error (invalidData "invalid bracketed IPv6 authority")
      | some (host, tail) =>
          match tail with
          | ':' :: port =>
              if port.contains ':' then .error (invalidData "invalid CONNECT port")
              else
                match IpAddr.parse host with
                | none => .error (invalidData "invalid IPv6 CONNECT address")
                | some address =>
                    if !address.isIpv6 then
                      .error (invalidData "bracketed CONNECT address must be IPv6")
                    else
                      match parsePort port with
                      | .error e => .error e
                      | .ok port => Target.new (.ip address) port
          | _ => .error (invalidData "missing CONNECT port")
  | _ =>
      match rsplitOnce ':' authority with
      | none => .error (invalidData "CONNECT authority must include a port")
      | some (host, port) =>
          if host.isEmpty || host.contains ':' then .error (invalidData "invalid CONNECT host")
          else
            let destination : Except IoError DestinationHost :=
              match IpAddr.parse host with
              | some address => .ok (.ip address)
              | none =>
                  let domain := toAsciiLowercase (trimEndMatches '.' host)
                  if domain.isEmpty || decide (253 < byteLen domain) then
                    .error (invalidData "invalid CONNECT domain")
                  else .ok (.domain domain)
            match destination with
            | .error e => .error e
            | .ok destination =>
                match parsePort port with
                | .error e => .error e
                | .ok port => Target.new destination port

/-- `\r\n\r\n`. -/
def headerEnd : Bytes := [13, 10, 13, 10]

/-- `find_header_end`: where the first `\r\n\r\n` starts. -/
def findHeaderEnd : Bytes → Option Nat
  | [] => none
  | b :: rest =>
      if headerEnd <+: b :: rest then some 0 else (findHeaderEnd rest).map (· + 1)

/-- The read loop of `read_request`: the buffer and the offset where its header ends. Each round
adds at least one byte, so the size limit bounds the number of rounds. -/
def readHead (buffer : Bytes) (s : ByteStream) : Except IoError (Bytes × Nat) × ByteStream :=
  match findHeaderEnd buffer with
  | some position => (.ok (buffer, position), s)
  | none =>
      if maxHeaderBytes ≤ buffer.length then
        (.error (invalidData "HTTP CONNECT header is too large"), s)
      else
        match ByteStream.read (min (maxHeaderBytes - buffer.length) 1024) s with
        | (.error e, s) => (.error e, s)
        | (.ok [], s) =>
            (.error ⟨.unexpectedEof, "HTTP CONNECT client closed before headers completed"⟩, s)
        | (.ok (b :: chunk), s) => readHead (buffer ++ b :: chunk) s
termination_by maxHeaderBytes - buffer.length
decreasing_by simp only [List.length_append, List.length_cons]; omega

/-- The part of `read_request` after the loop: the target of a header block. -/
def parseRequestHead (head : Bytes) : Except IoError Target :=
  match fromUtf8 head with
  | none => .error (invalidData "HTTP CONNECT headers are not UTF-8")
  | some header =>
      match splitWhitespace (firstCrlfLine header) with
      | [] => .error (invalidData "missing HTTP method")
      | [_] => .error (invalidData "missing CONNECT authority")
      | [_, _] => .error (invalidData "missing HTTP version")
      | method :: authority :: version :: more =>
          if more ≠ [] ∨ method ≠ "CONNECT".toList ∨ ¬ "HTTP/1.".toList <+: version then
            .error (invalidData "only HTTP/1.x CONNECT is supported")
          else parseAuthority authority

/-- `read_request`: the target and the bytes read past the header. -/
def readRequest : IoM ByteStream (Target × Bytes) := do
  let head ← readHead []
  let target ← IoM.lift (parseRequestHead (head.1.take head.2))
  pure (target, head.1.drop (head.2 + 4))

/-! ### What the authority grammar accepts -/

/-- The host part of an authority as the client wrote it, without brackets. -/
def authorityHost (authority : Str) : Option Str :=
  match authority with
  | '[' :: rest => (splitOnce ']' rest).map Prod.fst
  | _ => (rsplitOnce ':' authority).map Prod.fst

/-- The host that the parser produces from the host text of an authority. -/
inductive AuthorityHost (authority : Str) : DestinationHost → Prop where
  | ip {host : Str} {address : IpAddr} : authorityHost authority = some host →
      IpAddr.parse host = some address → AuthorityHost authority (.ip address)
  | domain {host : Str} : authorityHost authority = some host → authority.head? ≠ some '[' →
      ':' ∉ host → IpAddr.parse host = none → toAsciiLowercase (trimEndMatches '.' host) ≠ [] →
      byteLen (trimEndMatches '.' host) ≤ 253 →
      AuthorityHost authority (.domain (toAsciiLowercase (trimEndMatches '.' host)))

theorem parseAuthority_host {authority : Str} {t : Target}
    (h : parseAuthority authority = .ok t) : AuthorityHost authority t.host := by
  unfold parseAuthority at h
  split at h
  · rename_i rest
    split at h
    · cases h
    · rename_i host tail found
      split at h
      · split at h
        · cases h
        split at h
        · cases h
        rename_i address parsed
        split at h
        · cases h
        split at h
        · cases h
        rw [(Target.new_eq_ok h).1]
        exact .ip (by simp [authorityHost, found]) parsed
      · cases h
  · rename_i unbracketed
    split at h
    · cases h
    · rename_i host port found
      have field : authorityHost authority = some host := by
        unfold authorityHost
        split
        · exact absurd rfl (unbracketed _)
        · simp [found]
      split at h
      · cases h
      rename_i plain
      simp only [Bool.or_eq_true, List.isEmpty_iff, List.contains_iff_mem, not_or] at plain
      dsimp only at h
      cases parsed : IpAddr.parse host with
      | some address =>
          simp only [parsed] at h
          split at h
          · cases h
          rw [(Target.new_eq_ok h).1]
          exact .ip field parsed
      | none =>
          simp only [parsed] at h
          by_cases bad : (toAsciiLowercase (trimEndMatches '.' host)).isEmpty ||
              decide (253 < byteLen (toAsciiLowercase (trimEndMatches '.' host)))
          · rw [if_pos bad] at h
            cases h
          · rw [if_neg bad] at h
            dsimp only at h
            split at h
            · cases h
            rw [(Target.new_eq_ok h).1]
            simp only [Bool.or_eq_true, List.isEmpty_iff, decide_eq_true_eq, not_or, not_lt,
              byteLen_toAsciiLowercase] at bad
            refine .domain field ?_ plain.2 parsed bad.1 bad.2
            intro bracket
            obtain ⟨rest, rfl⟩ : ∃ rest, authority = '[' :: rest := by
              cases authority with
              | nil => cases bracket
              | cons c rest =>
                  cases bracket
                  exact ⟨rest, rfl⟩
            exact unbracketed rest rfl

/-! ### Reading a header under every segmentation -/

/-- A header end that was found stays where it is when more bytes arrive. -/
theorem findHeaderEnd_append {buffer : Bytes} {position : Nat}
    (found : findHeaderEnd buffer = some position) (more : Bytes) :
    findHeaderEnd (buffer ++ more) = some position ∧ position + 4 ≤ buffer.length := by
  induction buffer generalizing position with
  | nil => cases found
  | cons b rest ih =>
      rw [findHeaderEnd] at found
      split at found
      · rename_i here
        cases found
        have longer : headerEnd <+: b :: (rest ++ more) := here.trans ⟨more, rfl⟩
        exact ⟨by rw [List.cons_append, findHeaderEnd, if_pos longer], by
          simpa [headerEnd] using here.length_le⟩
      · rename_i notHere
        obtain ⟨position, later, rfl⟩ := Option.map_eq_some_iff.mp found
        obtain ⟨stays, bound⟩ := ih later
        have notLonger : ¬ headerEnd <+: b :: (rest ++ more) := by
          intro here
          refine notHere (List.prefix_of_prefix_length_le here ⟨more, rfl⟩ ?_)
          simp only [headerEnd, List.length_cons, List.length_nil]
          omega
        refine ⟨?_, by simpa using bound⟩
        rw [List.cons_append, findHeaderEnd, if_neg notLonger, stays]
        rfl

/-- A header end is the first delimiter of its kind. -/
theorem findHeaderEnd_eq_some_iff {bytes : Bytes} {position : Nat} :
    findHeaderEnd bytes = some position ↔ ∃ front rest, FirstAt headerEnd bytes front rest ∧
      front.length = position := by
  induction bytes generalizing position with
  | nil =>
      constructor
      · intro no
        cases no
      · rintro ⟨front, rest, here, -⟩
        have no := congrArg List.length here.split
        simp [headerEnd] at no
  | cons b bytes ih =>
      rw [findHeaderEnd]
      by_cases here : headerEnd <+: b :: bytes
      · obtain ⟨rest, split⟩ := here
        have first : FirstAt headerEnd (b :: bytes) [] rest :=
          ⟨split.symm, fun _ _ _ => Nat.zero_le _⟩
        rw [if_pos ⟨rest, split⟩]
        constructor
        · rintro ⟨⟩
          exact ⟨[], rest, first, rfl⟩
        · rintro ⟨front, rest', other, rfl⟩
          obtain ⟨rfl, -⟩ := other.unique first
          rfl
      · rw [if_neg here, Option.map_eq_some_iff]
        constructor
        · rintro ⟨later, found, rfl⟩
          obtain ⟨front, rest, ⟨split, first⟩, rfl⟩ := ih.mp found
          refine ⟨b :: front, rest,
            ⟨by rw [split, List.cons_append], fun front' rest' split' => ?_⟩, rfl⟩
          cases front' with
          | nil => exact absurd ⟨rest', split'.symm⟩ here
          | cons c front' =>
              obtain ⟨-, split'⟩ := List.cons.inj split'
              exact Nat.succ_le_succ (first front' rest' split')
        · rintro ⟨front, rest, ⟨split, first⟩, rfl⟩
          cases front with
          | nil => exact absurd ⟨rest, split.symm⟩ here
          | cons c front =>
              obtain ⟨rfl, behind⟩ := List.cons.inj split
              refine ⟨front.length, ih.mpr
                ⟨front, rest, ⟨behind, fun front' rest' split' => ?_⟩, rfl⟩, rfl⟩
              exact Nat.le_of_succ_le_succ
                (first (b :: front') rest' (by rw [split', List.cons_append]))

/-- A header end whose last byte has arrived is found before the rest of the stream. -/
theorem findHeaderEnd_of_append {buffer more : Bytes} {position : Nat}
    (found : findHeaderEnd (buffer ++ more) = some position)
    (arrived : position + 4 ≤ buffer.length) : findHeaderEnd buffer = some position := by
  induction buffer generalizing position with
  | nil => simp at arrived
  | cons b rest ih =>
      rw [List.cons_append, findHeaderEnd] at found
      rw [findHeaderEnd]
      split at found
      · rename_i here
        cases found
        have inside : headerEnd <+: b :: rest :=
          List.prefix_of_prefix_length_le here ⟨more, rfl⟩ (by simpa [headerEnd] using arrived)
        rw [if_pos inside]
      · rename_i notHere
        obtain ⟨position, later, rfl⟩ := Option.map_eq_some_iff.mp found
        have notInside : ¬ headerEnd <+: b :: rest := fun here => notHere (here.trans ⟨more, rfl⟩)
        rw [if_neg notInside, ih later (by simpa using arrived)]
        rfl

theorem findHeaderEnd_here (rest : Bytes) : findHeaderEnd (headerEnd ++ rest) = some 0 := by
  simp [headerEnd, findHeaderEnd]

/-- The search passes over a line that is followed by another one. -/
theorem findHeaderEnd_line {line : Bytes} (noReturn : (13 : UInt8) ∉ line) {b : UInt8} (ne : b ≠ 13)
    (rest : Bytes) :
    findHeaderEnd (line ++ 13 :: 10 :: b :: rest) =
      (findHeaderEnd (b :: rest)).map (· + (line.length + 2)) := by
  induction line with
  | nil =>
      have first : ¬ headerEnd <+: 13 :: 10 :: b :: rest := by simp [headerEnd, ne.symm]
      have second : ¬ headerEnd <+: 10 :: b :: rest := by simp [headerEnd]
      rw [List.nil_append, findHeaderEnd, if_neg first, findHeaderEnd, if_neg second,
        Option.map_map]
      rfl
  | cons c line ih =>
      have differs : c ≠ 13 := fun eq => noReturn (eq ▸ List.mem_cons_self)
      have notHere : ¬ headerEnd <+: c :: (line ++ 13 :: 10 :: b :: rest) := by
        simp [headerEnd, differs.symm]
      rw [List.cons_append, findHeaderEnd, if_neg notHere,
        ih fun mem => noReturn (List.mem_cons_of_mem _ mem), Option.map_map]
      rfl

/-- The last line of a header. -/
theorem findHeaderEnd_last {line : Bytes} (noReturn : (13 : UInt8) ∉ line) (rest : Bytes) :
    findHeaderEnd (line ++ (headerEnd ++ rest)) = some line.length := by
  induction line with
  | nil => exact findHeaderEnd_here rest
  | cons c line ih =>
      have differs : c ≠ 13 := fun eq => noReturn (eq ▸ List.mem_cons_self)
      have notHere : ¬ headerEnd <+: c :: (line ++ (headerEnd ++ rest)) := by
        simp [headerEnd, differs.symm]
      rw [List.cons_append, findHeaderEnd, if_neg notHere,
        ih fun mem => noReturn (List.mem_cons_of_mem _ mem)]
      rfl

/-- The first byte of a text that does not start with a return. -/
theorem utf8_starts {c : Char} (ne : c ≠ '\r') (rest : Str) :
    ∃ b bytes, utf8 (c :: rest) = b :: bytes ∧ b ≠ 13 := by
  have nonempty : String.utf8EncodeChar c ≠ [] := by
    intro empty
    have := c.utf8Size_pos
    rw [← String.length_utf8EncodeChar, empty] at this
    cases this
  obtain ⟨b, bytes, encoded⟩ := List.exists_cons_of_ne_nil nonempty
  refine ⟨b, bytes ++ utf8 rest, by rw [utf8_cons, encoded]; rfl, ?_⟩
  rintro rfl
  obtain ⟨d, found, value⟩ := mem_of_mem_utf8 (s := [c]) (b := 13)
    (by rw [utf8_cons, encoded]; simp) (by decide)
  rw [List.mem_singleton.mp found] at value
  exact ne (Char.toNat_inj.mp value)

theorem notMem_utf8 {text : Str} (absent : '\r' ∉ text) : (13 : UInt8) ∉ utf8 text := by
  intro mem
  obtain ⟨c, found, value⟩ := mem_of_mem_utf8 mem (by decide)
  have same : c = '\r' := Char.toNat_inj.mp value
  exact absent (same ▸ found)

theorem utf8_crlf (rest : Str) : utf8 ('\r' :: '\n' :: rest) = 13 :: 10 :: utf8 rest := rfl

/-- The search on text: it passes over a line that is followed by a nonempty one. -/
theorem findHeaderEnd_textLine {line rest : Str} (noReturn : '\r' ∉ line)
    {c : Char} (ne : c ≠ '\r') :
    findHeaderEnd (utf8 (line ++ '\r' :: '\n' :: c :: rest)) =
      (findHeaderEnd (utf8 (c :: rest))).map (· + (byteLen line + 2)) := by
  obtain ⟨b, bytes, encoded, differs⟩ := utf8_starts ne rest
  rw [utf8_append, utf8_crlf, encoded, findHeaderEnd_line (notMem_utf8 noReturn) differs]
  rfl

theorem findHeaderEnd_textLast {line : Str} (noReturn : '\r' ∉ line) :
    findHeaderEnd (utf8 (line ++ ['\r', '\n', '\r', '\n'])) = some (byteLen line) := by
  rw [utf8_append]
  exact findHeaderEnd_last (notMem_utf8 noReturn) []

/-- What the loop returns is the first header end of the whole stream, within the limit; what was
read past it is still in the buffer. -/
theorem readHead_sound {buffer buffer' : Bytes} {position : Nat} {s s' : ByteStream}
    (fits : buffer.length ≤ maxHeaderBytes)
    (read : readHead buffer s = (.ok (buffer', position), s')) :
    findHeaderEnd (buffer ++ s.incoming) = some position ∧ position + 4 ≤ buffer'.length ∧
      buffer'.length ≤ maxHeaderBytes ∧ buffer' ++ s'.incoming = buffer ++ s.incoming := by
  -- The induction is on the bytes that have not been read yet.
  induction unread : s.incoming.length using Nat.strong_induction_on generalizing buffer s with
  | _ n ih =>
      unfold readHead at read
      cases found : findHeaderEnd buffer with
      | some end' =>
          obtain ⟨stays, bound⟩ := findHeaderEnd_append found s.incoming
          rw [found] at read
          cases read
          exact ⟨stays, bound, fits, rfl⟩
      | none =>
          rw [found] at read
          dsimp only at read
          split at read
          · cases read
          rename_i room
          by_cases done : s.incoming = []
          · -- At the end of the stream a read gives nothing, or the final error.
            unfold ByteStream.read at read
            rw [done] at read
            cases ending : s.ending with
            | none =>
                rw [ending] at read
                cases read
            | some e =>
                rw [ending] at read
                cases read
          · obtain ⟨b, chunk, s₁, got, rest⟩ :=
              ByteStream.read_of_pending (min (maxHeaderBytes - buffer.length) 1024) done (by omega)
            have size := ByteStream.length_read got
            rw [got] at read
            dsimp only at read
            have fewer : s₁.incoming.length < n := unread ▸ ByteStream.length_incoming_lt rest
            have split : (buffer ++ b :: chunk) ++ s₁.incoming = buffer ++ s.incoming := by
              rw [rest, List.append_assoc]
            have fits' : (buffer ++ b :: chunk).length ≤ maxHeaderBytes := by
              rw [List.length_append]
              omega
            have later := ih _ fewer fits' read rfl
            rwa [split] at later

/-- A header end within the limit is found, however the stream is cut into reads. -/
theorem readHead_finds {buffer : Bytes} {position : Nat} {s : ByteStream}
    (found : findHeaderEnd (buffer ++ s.incoming) = some position)
    (limit : position + 4 ≤ maxHeaderBytes) :
    ∃ buffer' s', readHead buffer s = (.ok (buffer', position), s') := by
  induction unread : s.incoming.length using Nat.strong_induction_on generalizing buffer s with
  | _ n ih =>
      cases early : findHeaderEnd buffer with
      | some position' =>
          obtain ⟨stays, -⟩ := findHeaderEnd_append early s.incoming
          rw [found] at stays
          cases stays
          refine ⟨buffer, s, ?_⟩
          unfold readHead
          rw [early]
      | none =>
          have pending : s.incoming ≠ [] := by
            intro done
            rw [done, List.append_nil, early] at found
            cases found
          -- A buffer that is full would have the header end.
          have room : ¬ maxHeaderBytes ≤ buffer.length := by
            intro full
            have inside := findHeaderEnd_of_append found (by omega)
            rw [early] at inside
            cases inside
          obtain ⟨b, chunk, s₁, got, rest⟩ :=
            ByteStream.read_of_pending (min (maxHeaderBytes - buffer.length) 1024)
              pending (by omega)
          have fewer : s₁.incoming.length < n := unread ▸ ByteStream.length_incoming_lt rest
          have split : (buffer ++ b :: chunk) ++ s₁.incoming = buffer ++ s.incoming := by
            rw [rest, List.append_assoc]
          obtain ⟨buffer', s', read⟩ := ih _ fewer (split ▸ found) rfl
          refine ⟨buffer', s', ?_⟩
          unfold readHead
          rw [early]
          simp only [room, if_false, got, read]

/-- A request that is all header is read to its last byte, however it is cut into reads. -/
theorem readHead_whole {request buffer : Bytes} {position : Nat} {s : ByteStream}
    (found : findHeaderEnd request = some position) (whole : request.length = position + 4)
    (fits : request.length ≤ maxHeaderBytes) (split : buffer ++ s.incoming = request) :
    ∃ s', readHead buffer s = (.ok (request, position), s') ∧ s'.incoming = [] := by
  subst split
  obtain ⟨buffer', s', read⟩ := readHead_finds found (by omega)
  have short : buffer.length ≤ maxHeaderBytes := Nat.le_trans (by simp) fits
  obtain ⟨-, past, -, same⟩ := readHead_sound short read
  have sizes := congrArg List.length same
  rw [List.length_append] at sizes
  have empty : s'.incoming = [] := List.length_eq_zero_iff.mp (by omega)
  rw [empty, List.append_nil] at same
  exact ⟨s', by rw [read, same], empty⟩

theorem readRequest_whole {request : Bytes} {position : Nat} {s : ByteStream}
    (found : findHeaderEnd request = some position) (whole : request.length = position + 4)
    (fits : request.length ≤ maxHeaderBytes) (incoming : s.incoming = request) :
    ∃ s', readRequest s = ((parseRequestHead (request.take position)).map (·, []), s') ∧
      s'.incoming = [] := by
  obtain ⟨s', read, empty⟩ := readHead_whole found whole fits
    (show [] ++ s.incoming = request from incoming)
  refine ⟨s', ?_, empty⟩
  unfold readRequest
  rw [IoM.bind_of_ok read]
  have noRest : request.drop (position + 4) = [] := List.drop_eq_nil_of_le (by omega)
  cases parsed : parseRequestHead (request.take position) with
  | error e =>
      rw [IoM.bind_of_error (IoM.lift_error e s')]
      rfl
  | ok t =>
      rw [IoM.bind_of_ok (IoM.lift_ok t s'), noRest]
      rfl

/-- The authority of an accepted request is free of white space. -/
theorem readRequest_authority {s s' : ByteStream} {t : Target} {rest : Bytes}
    (h : readRequest s = (.ok (t, rest), s')) :
    ∃ authority, (∀ c ∈ authority, isWhitespace c = false) ∧ parseAuthority authority = .ok t := by
  unfold readRequest at h
  obtain ⟨⟨buffer, position⟩, s₁, -, h⟩ := IoM.bind_eq_ok.mp h
  obtain ⟨target, s₂, parsed, h⟩ := IoM.bind_eq_ok.mp h
  cases h
  cases head : parseRequestHead (buffer.take position) with
  | error e =>
      rw [head] at parsed
      cases parsed
  | ok target =>
      rw [head] at parsed
      cases parsed
      unfold parseRequestHead at head
      split at head
      · cases head
      rename_i header decoded
      split at head
      · cases head
      · cases head
      · cases head
      rename_i method authority version more fields
      split at head
      · cases head
      · refine ⟨authority, not_isWhitespace_of_mem (s := firstCrlfLine header) ?_, head⟩
        rw [fields]
        simp

end Commeatus.Daemon.HttpConnect
