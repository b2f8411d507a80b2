import Commeatus.Dns.Dot

/-!
The session of a DNS-over-TLS resolver stays in frame sync.

A session that is kept after a query has carried whole requests and whole
responses only, one for each, and every response had the transaction id of its
request. A session on which an exchange failed, or on which a response had
another id, is never used again: connections are numbered as they are
attempted, and the log shows no later exchange under its number.
-/

namespace Commeatus.Dns

open Commeatus.Lib Commeatus.Core

/-- A message with its length in front. -/
def frame (message : Bytes) : Bytes := toBeBytes (UInt16.ofNat message.length) ++ message

/-- A length that was read and as many bytes after it are a frame. -/
theorem frame_of_length {length message : Bytes} (two : length.length = dotLengthBytes)
    (whole : message.length = (fromBeBytes (byteAt length 0) (byteAt length 1)).toNat) :
    length ++ message = frame message := by
  obtain ⟨high, low, rfl⟩ := List.length_eq_two.mp two
  have same : UInt16.ofNat message.length = fromBeBytes high low := by
    rw [whole]
    exact UInt16.ofNat_toNat
  rw [frame, same, toBeBytes_fromBeBytes]

theorem exchangeMessage_number (request : Bytes) :
    IoM.Keeps Session.number (exchangeMessage request) := by
  unfold exchangeMessage
  split
  · exact fun _ => rfl
  · refine (Session.writeAll_number _).bind fun _ => Session.flush_number.bind fun _ => ?_
    refine (Session.readExact_number _).bind fun length => ?_
    dsimp only
    split
    · exact fun _ => rfl
    · exact Session.readExact_number _

/-- An exchange that succeeds has written the whole request and consumed one whole response. -/
theorem exchangeMessage_eq_ok {request response : Bytes} {s s' : Session}
    (exchanged : exchangeMessage request s = (.ok response, s')) :
    s'.number = s.number ∧ s'.written = s.written ++ frame request ∧
    s'.consumed = s.consumed ++ frame response ∧
      dnsHeaderBytes ≤ response.length := by
  unfold exchangeMessage at exchanged
  split at exchanged
  · cases exchanged
  obtain ⟨u, s₁, wrote, exchanged⟩ := IoM.bind_eq_ok.mp exchanged
  obtain ⟨u, s₂, flushed, exchanged⟩ := IoM.bind_eq_ok.mp exchanged
  obtain ⟨length, s₃, readLength, exchanged⟩ := IoM.bind_eq_ok.mp exchanged
  split at exchanged
  · cases exchanged
  rename_i long
  obtain ⟨n₁, w₁, c₁⟩ := Session.writeAll_eq_ok wrote
  obtain ⟨n₂, w₂, c₂⟩ := Session.flush_eq_ok flushed
  obtain ⟨two, n₃, w₃, c₃⟩ := Session.readExact_eq_ok readLength
  obtain ⟨whole, n₄, w₄, c₄⟩ := Session.readExact_eq_ok exchanged
  refine ⟨by rw [n₄, n₃, n₂, n₁], ?_, ?_, by omega⟩
  · rw [w₄, w₃, w₂, w₁, frame]
  · rw [c₄, c₃, c₂, c₁, List.append_assoc, frame_of_length two whole]

/-! ### One exchange -/

/-- The session that an exchange is on, if the event is one. -/
def DotEvent.session : DotEvent → Option Nat
  | .connect _ => none
  | .exchange session _ _ => some session

/-- The response has the transaction id of the request. -/
def Carries (request : Bytes) (outcome : Except IoError Bytes) : Prop :=
  ∃ response, outcome = .ok response ∧ readU16 response 0 = readU16 request 0

namespace DotState

/-- A round has a session to use: the one that is kept, or one that was just opened. -/
inductive Picks (s : DotState) : Session → List DotEvent → Nat → Prop where
  | kept {session : Session} (present : s.session = some session) : Picks s session [] s.attempts
  | opened {session : Session} (absent : s.session = none) (number : session.number = s.attempts)
      (unwritten : session.written = []) (unread : session.consumed = []) :
      Picks s session [.connect (.ok s.attempts)] (s.attempts + 1)

theorem Picks.opening_cases {s : DotState} {session : Session}
    {opening : List DotEvent} {attempts : Nat}
    (picks : Picks s session opening attempts) :
    opening = [] ∨ opening = [.connect (.ok s.attempts)] := by
  cases picks with
  | kept present => exact .inl rfl
  | opened absent number unwritten unread => exact .inr rfl

/-- What a round can do. -/
inductive Attempted (request : Bytes) (s : DotState) : Except IoError Bytes → DotState → Prop where
  | unconnected {e : IoError} {s' : DotState} (absent : s.session = none) (none : s'.session = none)
      (attempts : s'.attempts = s.attempts + 1) (log : s'.log = s.log ++ [.connect (.error e)]) :
      Attempted request s (.error e) s'
  | failed {session : Session} {opening : List DotEvent} {e : IoError} {s' : DotState}
      (picks : Picks s session opening s'.attempts) (none : s'.session = none)
      (log : s'.log = s.log ++ opening ++ [.exchange session.number request (.error e)]) :
      Attempted request s (.error e) s'
  | answered {session session' : Session} {opening : List DotEvent}
      {response : Bytes} {s' : DotState}
      (picks : Picks s session opening s'.attempts)
      (exchanged : exchangeMessage request session = (.ok response, session'))
        (some : s'.session = some session')
      (log : s'.log = s.log ++ opening ++ [.exchange session.number request (.ok response)]) :
      Attempted request s (.ok response) s'

/-- The part of a round after a session was picked. -/
theorem attempted_of_picks {request : Bytes} {s s₁ : DotState} {session : Session}
    {opening : List DotEvent}
    (picks : Picks s session opening s₁.attempts) (log : s₁.log = s.log ++ opening) :
    Attempted request s (s₁.exchangeOn request session).1 (s₁.exchangeOn request session).2 := by
  have number := exchangeMessage_number request session
  unfold exchangeOn
  match exchanged : exchangeMessage request session with
  | (.ok response, session') =>
      rw [exchanged] at number
      refine .answered picks exchanged rfl ?_
      simp only at number ⊢
      rw [log, number]
  | (.error e, session') =>
      rw [exchanged] at number
      refine .failed picks rfl ?_
      simp only at number ⊢
      rw [log, number]

theorem attempted_of_attempt (request : Bytes) (s : DotState) :
    Attempted request s (s.attempt request).1 (s.attempt request).2 := by
  unfold attempt ensureSession
  match present : s.session with
  | some session =>
      dsimp only
      rw [present]
      exact attempted_of_picks (.kept present) (List.append_nil _).symm
  | none =>
      dsimp only
      unfold connect
      match s.connects with
      | [] => exact .unconnected present present rfl rfl
      | .error e :: rest => exact .unconnected present present rfl rfl
      | .ok session :: rest =>
          have picks :
              Picks s { session with number := s.attempts, written := [], consumed := [] } _ _ :=
            .opened present rfl rfl rfl
          exact attempted_of_picks picks rfl

/-! ### Sessions that are not used again -/

/-- A later exchange may be on this session: it is kept, or not yet opened. -/
def Usable (s : DotState) (n : Nat) : Prop :=
  (∃ session, s.session = some session ∧ session.number = n) ∨ s.attempts ≤ n

end DotState

/-- No session is used any more once an exchange on it had no response with the id of its
request. -/
def Closed (log : List DotEvent) (usable : Nat → Prop) : Prop :=
  ∀ before n request outcome after, log = before ++ .exchange n request outcome :: after →
    ¬ Carries request outcome →
    (∀ event ∈ after, event.session ≠ some n) ∧ ¬ usable n

/-- An event on a session that may be used. -/
theorem Closed.snoc {log : List DotEvent} {usable usable' : Nat → Prop}
    (closed : Closed log usable) {event : DotEvent}
    (used : ∀ n, event.session = some n → usable n) (fewer : ∀ n, usable' n → usable n)
    (last : ∀ n request outcome, event = .exchange n request outcome →
      ¬ Carries request outcome → ¬ usable' n) :
    Closed (log ++ [event]) usable' := by
  intro before n request outcome after split bad
  cases after using List.reverseRecOn with
  | nil =>
      obtain ⟨rfl, same⟩ := List.append_inj' split rfl
      cases same
      exact ⟨fun _ no => absurd no List.not_mem_nil, last n request outcome rfl bad⟩
  | append_singleton after final =>
      have grown :
          log ++ [event] = (before ++ .exchange n request outcome :: after) ++ [final] := by
        simpa using split
      obtain ⟨earlier, same⟩ := List.append_inj' grown rfl
      cases same
      obtain ⟨unused, dead⟩ := closed before n request outcome after earlier bad
      refine ⟨fun later member => ?_, mt (fewer n) dead⟩
      rcases List.mem_append.mp member with old | new
      · exact unused later old
      · rw [List.mem_singleton.mp new]
        exact fun on => dead (used n on)

namespace DotState

/-- Numbers are given in the order of the attempts, and sessions once closed stay closed. -/
structure Tracked (s : DotState) : Prop where
  numbered : ∀ session, s.session = some session → session.number < s.attempts
  closed : Closed s.log s.Usable

theorem Picks.facts {s : DotState} {session : Session} {opening : List DotEvent} {attempts : Nat}
    (tracked : s.Tracked)
    (picks : Picks s session opening attempts) :
    s.Usable session.number ∧ session.number < attempts ∧ s.attempts ≤ attempts ∧
    Closed (s.log ++ opening) s.Usable := by
  cases picks with
  | kept present =>
      refine ⟨.inl ⟨session, present, rfl⟩, tracked.numbered session present, Nat.le_refl _, ?_⟩
      rw [List.append_nil]
      exact tracked.closed
  | opened absent number _ _ =>
      refine ⟨.inr (Nat.le_of_eq number.symm), by omega, Nat.le_succ _, ?_⟩
      refine tracked.closed.snoc ?_ (fun _ => id) ?_
      · rintro n ⟨⟩
      · rintro n request outcome ⟨⟩

/-- After a round without a response there is no session, and everything is as tracked as before. -/
theorem Tracked.of_error {request : Bytes} {s s' : DotState} {e : IoError} (tracked : s.Tracked)
    (round : Attempted request s (.error e) s') : s'.Tracked ∧ s'.session = none ∧
    s.attempts ≤ s'.attempts := by
  have fewer : s'.session = none → s.attempts ≤ s'.attempts → ∀ n, s'.Usable n → s.Usable n := by
    rintro none more n (⟨session, present, -⟩ | new)
    · rw [none] at present
      cases present
    · exact .inr (Nat.le_trans more new)
  cases round with
  | unconnected absent none attempts log =>
      have more : s.attempts ≤ s'.attempts := by omega
      refine ⟨⟨fun session present => ?_, ?_⟩, none, more⟩
      · rw [none] at present
        cases present
      · rw [log]
        refine tracked.closed.snoc ?_ (fewer none more) ?_
        · rintro n ⟨⟩
        · rintro n request outcome ⟨⟩
  | @failed session opening _ _ picks none log =>
      obtain ⟨usable, bounded, more, closed⟩ := picks.facts tracked
      refine ⟨⟨fun session present => ?_, ?_⟩, none, more⟩
      · rw [none] at present
        cases present
      · rw [log]
        refine closed.snoc ?_ (fewer none more) ?_
        · rintro n ⟨⟩
          exact usable
        · rintro n request outcome ⟨⟩ _ (⟨session, present, -⟩ | new)
          · rw [none] at present
            cases present
          · omega

/-- After a round with a response the state is tracked once the session is given up, and also when
it is kept and the response had the id of the request. -/
theorem Tracked.of_response {request response : Bytes} {s s' : DotState} (tracked : s.Tracked)
    (round : Attempted request s (.ok response) s') :
    Tracked { s' with session := none } ∧
    (readU16 response 0 = readU16 request 0 → s'.Tracked) := by
  cases round with
  | @answered session session' opening _ _ picks exchanged some log =>
      obtain ⟨usable, bounded, more, closed⟩ := picks.facts tracked
      obtain ⟨number, -⟩ := exchangeMessage_eq_ok exchanged
      constructor
      · refine ⟨(fun _ no => nomatch no), ?_⟩
        change Closed s'.log _
        rw [log]
        refine closed.snoc ?_ ?_ ?_
        · rintro n ⟨⟩
          exact usable
        · rintro n (⟨session, no, -⟩ | new)
          · cases no
          · exact .inr (Nat.le_trans more new)
        · rintro n request outcome ⟨⟩ _ (⟨session, no, -⟩ | new)
          · cases no
          · exact absurd new (Nat.not_le.mpr bounded)
      · intro carries
        refine ⟨fun kept present => ?_, ?_⟩
        · rw [some] at present
          cases present
          rw [number]
          exact bounded
        · rw [log]
          refine closed.snoc ?_ ?_ ?_
          · rintro n ⟨⟩
            exact usable
          · rintro n (⟨kept, present, rfl⟩ | new)
            · rw [some] at present
              cases present
              rw [number]
              exact usable
            · exact .inr (Nat.le_trans more new)
          · rintro n request outcome ⟨⟩ bad
            exact absurd ⟨response, rfl, carries⟩ bad

end DotState

/-! ### The events of one exchange -/

/-- The number of connection attempts among the events. -/
def connections (events : List DotEvent) : Nat := events.countP fun event => event.session.isNone

/-- The sessions on which the events wrote a request, in order. -/
def sessionsUsed (events : List DotEvent) : List Nat := events.filterMap DotEvent.session

/-- Every request that the events wrote is this one. -/
def OnlyRequest (request : Bytes) (events : List DotEvent) : Prop :=
  ∀ event ∈ events, ∀ n request' outcome, event = .exchange n request' outcome → request' = request

theorem OnlyRequest.append {request : Bytes} {events events' : List DotEvent}
    (first : OnlyRequest request events)
    (second : OnlyRequest request events') : OnlyRequest request (events ++ events') := by
  intro event member
  rcases List.mem_append.mp member with earlier | later
  · exact first event earlier
  · exact second event later

namespace DotState

/-- A round connects once at most and writes once at most, on a session that may be used and, if the
round fails, may not be used again. -/
theorem Attempted.events {request : Bytes} {s s' : DotState} {result : Except IoError Bytes}
    (tracked : s.Tracked)
    (round : Attempted request s result s') :
    ∃ new, s'.log = s.log ++ new ∧ connections new ≤ 1 ∧ OnlyRequest request new ∧
      (sessionsUsed new = [] ∨ ∃ n, sessionsUsed new = [n] ∧ s.Usable n ∧
        (s'.session = none → ¬ s'.Usable n)) := by
  have used : ∀ {session : Session} {opening : List DotEvent} {outcome : Except IoError Bytes},
      Picks s session opening s'.attempts →
        s'.log = s.log ++ opening ++ [.exchange session.number request outcome] →
      ∃ new, s'.log = s.log ++ new ∧ connections new ≤ 1 ∧ OnlyRequest request new ∧
        (sessionsUsed new = [] ∨ ∃ n, sessionsUsed new = [n] ∧ s.Usable n ∧
            (s'.session = none → ¬ s'.Usable n)) := by
    intro session opening outcome picks log
    obtain ⟨usable, bounded, -, -⟩ := picks.facts tracked
    have dead : s'.session = none → ¬ s'.Usable session.number := by
      rintro none (⟨kept, present, -⟩ | new)
      · rw [none] at present
        cases present
      · omega
    refine ⟨opening ++ [.exchange session.number request outcome], by
      rw [log, List.append_assoc], ?_, ?_,
      .inr ⟨session.number, ?_, usable, dead⟩⟩
    · rcases picks.opening_cases with rfl | rfl <;> simp [connections, DotEvent.session]
    · intro event member n request' outcome' same
      rcases List.mem_append.mp member with opens | last
      · rcases picks.opening_cases with rfl | rfl
        · cases opens
        · rw [List.mem_singleton.mp opens] at same
          cases same
      · rw [List.mem_singleton.mp last] at same
        cases same
        rfl
    · rcases picks.opening_cases with rfl | rfl <;> rfl
  cases round with
  | unconnected absent none attempts log =>
      refine ⟨_, log, by simp [connections, DotEvent.session],
        fun event member n request' outcome same => ?_, .inl rfl⟩
      rw [List.mem_singleton.mp member] at same
      cases same
  | failed picks none log => exact used picks log
  | answered picks exchanged some log => exact used picks log

/-- How an exchange ends: with a response in the first round or, after a failed one, in the second;
or with an error and without a session. -/
inductive Exchanged (request : Bytes) (s : DotState) : Except DnsError Bytes → DotState → Prop where
  | first {response : Bytes} {s' : DotState} (round : Attempted request s (.ok response) s') :
      Exchanged request s (.ok response) s'
  | second {response : Bytes} {e : IoError} {s₁ s' : DotState}
      (failed : Attempted request s (.error e) s₁)
      (round : Attempted request s₁ (.ok response) s') : Exchanged request s (.ok response) s'
  | failed {e e' : IoError} {error : DnsError} {s₁ s' : DotState}
      (first : Attempted request s (.error e) s₁)
      (second : Attempted request s₁ (.error e') s') : Exchanged request s (.error error) s'

theorem exchanged_of_exchange (request : Bytes) (s : DotState) :
    Exchanged request s (s.exchange request).1 (s.exchange request).2 := by
  have round := attempted_of_attempt request s
  unfold exchange dotConnectAttempts exchangeRounds
  match tried : s.attempt request with
  | (.ok response, s₁) =>
      rw [tried] at round
      exact .first round
  | (.error e, s₁) =>
      rw [tried] at round
      dsimp only at round ⊢
      have again := attempted_of_attempt request s₁
      unfold exchangeRounds
      match tried : s₁.attempt request with
      | (.ok response, s₂) =>
          rw [tried] at again
          exact .second round again
      | (.error e, s₂) =>
          rw [tried] at again
          exact .failed round again

/-- The responses among the events are this one, to this request, if there is one. -/
def Answers (request : Bytes) (response : Option Bytes) (events : List DotEvent) : Prop :=
  ∀ request' response', (∃ n, .exchange n request' (.ok response') ∈ events) ↔
    request' = request ∧ response = some response'

theorem Attempted.answers {request : Bytes} {s s' : DotState} {result : Except IoError Bytes}
    (round : Attempted request s result s') :
    ∃ new, s'.log = s.log ++ new ∧ Answers request result.toOption new := by
  have used : ∀ {session : Session} {opening : List DotEvent} {outcome : Except IoError Bytes},
      Picks s session opening s'.attempts →
      Answers request outcome.toOption
        (opening ++ [.exchange session.number request outcome]) := by
    intro session opening outcome picks request' response'
    have none : ∀ n, .exchange n request' (.ok response') ∉ opening := by
      rcases picks.opening_cases with rfl | rfl <;> simp
    cases outcome with
    | error e => simp [none, Except.toOption]
    | ok response => simp [none, Except.toOption, eq_comm]
  cases round with
  | unconnected absent none attempts log => exact ⟨_, log, by simp [Answers, Except.toOption]⟩
  | failed picks none log => exact ⟨_, by rw [log, List.append_assoc], used picks⟩
  | answered picks exchanged some log => exact ⟨_, by rw [log, List.append_assoc], used picks⟩

/-- An exchange that succeeds has one response, and it is the result. -/
theorem Exchanged.answers {request : Bytes} {s s' : DotState} {result : Except DnsError Bytes}
    (exchanged : Exchanged request s result s') :
    ∃ new, s'.log = s.log ++ new ∧ Answers request result.toOption new := by
  have twice : ∀ {e : IoError} {s₁ : DotState} {result : Except IoError Bytes},
      Attempted request s (.error e) s₁ → Attempted request s₁ result s' →
      ∃ new, s'.log = s.log ++ new ∧ Answers request result.toOption new := by
    intro e s₁ result first second
    obtain ⟨new₁, log₁, answers₁⟩ := first.answers
    obtain ⟨new₂, log₂, answers₂⟩ := second.answers
    refine ⟨new₁ ++ new₂, by rw [log₂, log₁, List.append_assoc], fun request' response' => ?_⟩
    have none : ∀ n, .exchange n request' (.ok response') ∉ new₁ := fun n member =>
      nomatch ((answers₁ request' response').mp ⟨n, member⟩).2
    simpa [none] using answers₂ request' response'
  cases exchanged with
  | first round => exact round.answers
  | second failed round => exact twice failed round
  | failed first second => exact twice first second

/-- A single exchange attempts two connections at most and writes the request twice at most, each
time on another session; without a response there is no session left. -/
theorem Exchanged.events {request : Bytes} {s s' : DotState} {result : Except DnsError Bytes}
    (tracked : s.Tracked)
    (exchanged : Exchanged request s result s') :
    ∃ new, s'.log = s.log ++ new ∧ connections new ≤ 2 ∧ (sessionsUsed new).length ≤ 2 ∧
      (sessionsUsed new).Nodup ∧
      OnlyRequest request new ∧ ((∃ error, result = .error error) → s'.session = none) := by
  have twice : ∀ {e : IoError} {s₁ : DotState} {result : Except IoError Bytes},
    Attempted request s (.error e) s₁ →
      Attempted request s₁ result s' →
      ∃ new, s'.log = s.log ++ new ∧ connections new ≤ 2 ∧ (sessionsUsed new).length ≤ 2 ∧
        (sessionsUsed new).Nodup ∧
        OnlyRequest request new := by
    intro e s₁ result first second
    obtain ⟨tracked₁, none, -⟩ := tracked.of_error first
    obtain ⟨new₁, log₁, connected₁, only₁, used₁⟩ := first.events tracked
    obtain ⟨new₂, log₂, connected₂, only₂, used₂⟩ := second.events tracked₁
    refine ⟨new₁ ++ new₂, by rw [log₂, log₁, List.append_assoc], ?_, ?_, ?_, only₁.append only₂⟩
    · rw [connections, List.countP_append]
      exact Nat.add_le_add connected₁ connected₂
    all_goals rw [sessionsUsed, List.filterMap_append]
    · change (sessionsUsed new₁ ++ sessionsUsed new₂).length ≤ 2
      rcases used₁ with used₁ | ⟨n₁, used₁, -⟩ <;> rcases used₂ with used₂ | ⟨n₂, used₂, -⟩ <;>
        simp [used₁, used₂]
    · change (sessionsUsed new₁ ++ sessionsUsed new₂).Nodup
      rcases used₁ with used₁ | ⟨n₁, used₁, -, dead⟩ <;>
        rcases used₂ with used₂ | ⟨n₂, used₂, usable, -⟩ <;>
        simp only [used₁, used₂, List.nil_append, List.append_nil, List.nodup_nil,
          List.nodup_singleton]
      -- The session of the first round may not be used by the second.
      have other : n₁ ≠ n₂ := fun same => dead none (same ▸ usable)
      simpa using other
  cases exchanged with
  | first round =>
      obtain ⟨new, log, connected, only, used⟩ := round.events tracked
      refine ⟨new, log, by omega, ?_, ?_, only, fun ⟨_, no⟩ => nomatch no⟩
      · rcases used with used | ⟨n, used, -⟩ <;> simp [used]
      · rcases used with used | ⟨n, used, -⟩ <;> simp [used]
  | second failed round =>
      obtain ⟨new, log, connected, few, distinct, only⟩ := twice failed round
      exact ⟨new, log, connected, few, distinct, only, fun ⟨_, no⟩ => nomatch no⟩
  | failed first second =>
      obtain ⟨new, log, connected, few, distinct, only⟩ := twice first second
      obtain ⟨tracked₁, -⟩ := tracked.of_error first
      exact ⟨new, log, connected, few, distinct, only, fun _ => (tracked₁.of_error second).2.1⟩

end DotState

/-! ### Whole runs of queries -/

/-- A request starts with its transaction id. -/
theorem readU16_of_encodeAddressQuery {id : UInt16} {query : DnsQuery}
    {recordType : AddressRecordType} {request : Bytes}
    (encoded : encodeAddressQuery id query recordType = .ok request) :
    readU16 request 0 = .ok id := by
  unfold encodeAddressQuery encodeName at encoded
  obtain ⟨message, named, whole⟩ := bind_eq_ok_iff.mp encoded
  obtain ⟨labels, -, named⟩ := bind_eq_ok_iff.mp named
  obtain ⟨u, -, named⟩ := bind_eq_ok_iff.mp named
  cases named
  cases whole
  simp [readU16, toBeBytes, byteAt]

/-- A response with another transaction id is invalid, whatever follows. -/
theorem parseAddressResponse_of_id {id : UInt16} {message : Bytes}
    (other : readU16 message 0 ≠ .ok id)
    (query : DnsQuery) (recordType : AddressRecordType) :
    ∃ e, parseAddressResponse id query recordType message = .error e ∧
      e.kind = .invalidResponse := by
  unfold parseAddressResponse parseAnswerRecords
  by_cases size : message.length < dnsHeaderBytes ∨ maxDnsMessageBytes < message.length
  · rw [refuse_of size]
    exact ⟨_, rfl, rfl⟩
  rw [refuse_of_not size]
  match found : readU16 message 0 with
  | .error e =>
      refine ⟨e, rfl, ?_⟩
      unfold readU16 at found
      split at found
      · cases found
      · cases found
        rfl
  | .ok id' =>
      have wrong : id' ≠ id := fun same => other (by rw [found, same])
      refine ⟨invalidResponse "DNS response transaction ID does not match query", ?_, rfl⟩
      change ((refuse (id' ≠ id) _ >>= _) >>= _) = _
      rw [refuse_of wrong]
      rfl

/-- A query under the lock, with the id that the counter gave it. -/
structure QueryCall where
  id : UInt16
  query : DnsQuery
  recordType : AddressRecordType

/-- A request that was answered. -/
structure Exchange where
  call : QueryCall
  request : Bytes
  response : Bytes

/-- The exchange belongs to its call: the request is the call's, and the response has its id. -/
def Exchange.Matches (x : Exchange) : Prop :=
  encodeAddressQuery x.call.id x.call.query x.call.recordType = .ok x.request ∧
    dnsHeaderBytes ≤ x.response.length ∧
    readU16 x.response 0 = .ok x.call.id

/-- The session has carried whole requests of the calls, and consumed one whole response for
each. -/
def InSync (calls : List QueryCall) (session : Session) : Prop :=
  ∃ exchanges : List Exchange, (exchanges.map Exchange.call).Sublist calls ∧
    (∀ x ∈ exchanges, x.Matches) ∧
    session.written = exchanges.flatMap (fun x => frame x.request) ∧
    session.consumed = exchanges.flatMap fun x => frame x.response

theorem InSync.mono {calls : List QueryCall} {session : Session}
    (sync : InSync calls session) (call : QueryCall) :
    InSync (calls ++ [call]) session := by
  obtain ⟨exchanges, sub, rest⟩ := sync
  exact ⟨exchanges, sub.trans (List.sublist_append_left calls [call]), rest⟩

/-- One more exchange that succeeds. -/
theorem InSync.exchange {calls : List QueryCall} {session session' : Session} {call : QueryCall}
    {request response : Bytes}
    (sync : InSync calls session)
    (encoded : encodeAddressQuery call.id call.query call.recordType = .ok request)
    (exchanged : exchangeMessage request session = (.ok response, session'))
    (carries : readU16 response 0 = .ok call.id) :
    InSync (calls ++ [call]) session' := by
  obtain ⟨exchanges, sub, matching, written, consumed⟩ := sync
  obtain ⟨-, wrote, read, long⟩ := exchangeMessage_eq_ok exchanged
  refine ⟨exchanges ++ [⟨call, request, response⟩], ?_, ?_, ?_, ?_⟩
  · rw [List.map_append]
    exact sub.append (List.Sublist.refl _)
  · intro x member
    rcases List.mem_append.mp member with earlier | last
    · exact matching x earlier
    · rw [List.mem_singleton.mp last]
      exact ⟨encoded, long, carries⟩
  · rw [wrote, written, List.flatMap_append, List.flatMap_singleton]
  · rw [read, consumed, List.flatMap_append, List.flatMap_singleton]

namespace DotState

/-- The invariant between queries. -/
structure Sync (calls : List QueryCall) (s : DotState) : Prop where
  tracked : s.Tracked
  session : ∀ session, s.session = some session → InSync calls session

theorem Sync.mono {calls : List QueryCall} {s : DotState} (sync : Sync calls s) (call : QueryCall) :
    Sync (calls ++ [call]) s :=
  ⟨sync.tracked, fun session present => (sync.session session present).mono call⟩

theorem Sync.of_none {calls : List QueryCall} {s : DotState} (tracked : s.Tracked)
    (none : s.session = none) : Sync calls s := by
  refine ⟨tracked, fun session present => ?_⟩
  rw [none] at present
  cases present

/-- The session of a round with a response comes from one in sync. -/
theorem Sync.of_response {calls : List QueryCall} {call : QueryCall}
    {request response : Bytes} {s s' : DotState}
    (sync : Sync calls s)
    (encoded : encodeAddressQuery call.id call.query call.recordType = .ok request)
    (round : Attempted request s (.ok response) s') (carries : readU16 response 0 = .ok call.id) :
    Sync (calls ++ [call]) s' := by
  have same : readU16 response 0 = readU16 request 0 := by
    rw [carries, readU16_of_encodeAddressQuery encoded]
  refine ⟨(sync.tracked.of_response round).2 same, fun kept present => ?_⟩
  cases round with
  | @answered session session' opening _ _ picks exchanged some log =>
      rw [some] at present
      cases present
      have start : InSync calls session := by
        generalize s'.attempts = attempts at picks
        cases picks with
        | kept present => exact sync.session session present
        | opened absent number unwritten unread =>
            exact ⟨[], List.nil_sublist calls, fun _ no => absurd no List.not_mem_nil,
              unwritten, unread⟩
      exact start.exchange encoded exchanged carries

/-- One query: the call under the lock. -/
def query (call : QueryCall) (s : DotState) : DotState :=
  (s.resolveFamily call.id call.query call.recordType).2

/-- The session of a response is given up unless the id is right. -/
theorem Sync.judge {calls : List QueryCall} {call : QueryCall}
    {request response : Bytes} {s s' : DotState}
    (sync : Sync calls s)
    (encoded : encodeAddressQuery call.id call.query call.recordType = .ok request)
    (round : Attempted request s (.ok response) s') :
    Sync (calls ++ [call]) (s'.judge call.id call.query call.recordType response).2 := by
  have dropped : Sync (calls ++ [call]) { s' with session := none } :=
    of_none (sync.tracked.of_response round).1 rfl
  unfold DotState.judge
  by_cases carries : readU16 response 0 = .ok call.id
  · have kept := sync.of_response encoded round carries
    split
    · exact kept
    · dsimp only
      split
      · exact dropped
      · exact kept
  · obtain ⟨e, invalid, kind⟩ := parseAddressResponse_of_id carries call.query call.recordType
    rw [invalid]
    dsimp only
    rw [if_pos kind]
    exact dropped

theorem Sync.query {calls : List QueryCall} {s : DotState}
    (sync : Sync calls s) (call : QueryCall) :
    Sync (calls ++ [call]) (s.query call) := by
  unfold DotState.query resolveFamily
  match encoded : encodeAddressQuery call.id call.query call.recordType with
  | .error e => exact sync.mono call
  | .ok request =>
      dsimp only
      have ended := exchanged_of_exchange request s
      match result : s.exchange request with
      | (.error e, s') =>
          rw [result] at ended
          cases ended with
          | failed first second =>
              obtain ⟨tracked₁, -⟩ := sync.tracked.of_error first
              obtain ⟨tracked', none, -⟩ := tracked₁.of_error second
              exact .of_none tracked' none
      | (.ok response, s') =>
          rw [result] at ended
          cases ended with
          | first round => exact sync.judge encoded round
          | second failed round =>
              obtain ⟨tracked₁, none, -⟩ := sync.tracked.of_error failed
              exact (of_none tracked₁ none).judge encoded round

/-- The queries one after the other. -/
def run (calls : List QueryCall) (s : DotState) : DotState :=
  calls.foldl (fun s call => s.query call) s

theorem Sync.run {done : List QueryCall} {s : DotState} (sync : Sync done s)
    (calls : List QueryCall) :
    Sync (done ++ calls) (s.run calls) := by
  induction calls generalizing done s with
  | nil =>
      rw [List.append_nil]
      exact sync
  | cons call calls ih =>
      have rest := ih (sync.query call)
      rw [List.append_assoc] at rest
      exact rest

theorem Sync.start (connects : List (Except IoError Session)) : Sync [] { connects } := by
  refine .of_none ⟨(fun _ no => nomatch no), ?_⟩ rfl
  intro before n request outcome after split
  exact absurd split (by simp)

/-- In every run of queries against any peer: a session that is kept has carried whole requests and
whole responses only, one for each, with the right ids; a session on which an exchange failed or had
a response with another id is gone and no later exchange is on it; and the next exchange attempts
two connections at most, writes the request twice at most and on different sessions, and leaves no
session when it fails. -/
theorem dot_session_in_sync (connects : List (Except IoError Session)) (calls : List QueryCall) :
    let s : DotState := run calls { connects }
    (∀ session, s.session = some session → InSync calls session) ∧
    (∀ before n request outcome after, s.log = before ++ .exchange n request outcome :: after →
      ¬ Carries request outcome →
        (∀ event ∈ after, event.session ≠ some n) ∧ ∀ session, s.session = some session →
          session.number ≠ n) ∧
    ∀ request, ∃ new, (s.exchange request).2.log = s.log ++ new ∧ connections new ≤ 2 ∧
      (sessionsUsed new).length ≤ 2 ∧ (sessionsUsed new).Nodup ∧ OnlyRequest request new ∧
      ((∃ error, (s.exchange request).1 = .error error) →
          (s.exchange request).2.session = none) := by
  intro s
  have sync : Sync calls s := (Sync.start connects).run calls
  refine ⟨sync.session, ?_, ?_⟩
  · intro before n request outcome after split bad
    obtain ⟨unused, dead⟩ := sync.tracked.closed before n request outcome after split bad
    exact ⟨unused, fun session present same => dead (.inl ⟨session, present, same⟩)⟩
  · intro request
    exact (exchanged_of_exchange request s).events sync.tracked

/-- A query for `a.b` with the id 1. -/
def sampleCall : QueryCall := ⟨1, ⟨"a.b".toList, by decide⟩, .a⟩

/-- A peer that answers it with one address, in two pieces. -/
def samplePeer : Session where
  number := 0
  reads :=
    [.ok [0, 37, 0, 1, 0x81, 0x80, 0, 1, 0, 1, 0, 0, 0, 0, 1, 97],
      .error ⟨.interrupted, "interrupted"⟩,
    .ok [1, 98, 0, 0, 1, 0, 1, 0xc0, 12, 0, 1, 0, 1, 0, 0, 0, 60, 0, 4, 192, 0, 2, 1]]
  writes := [.ok 10, .ok 100]
  flushes := []

theorem dot_session_in_sync_example :
    ∃ session, (run [sampleCall] { connects := [.ok samplePeer] }).session = some session ∧
      InSync [sampleCall] session := by
  have kept : (run [sampleCall] { connects := [.ok samplePeer] }).session.isSome =
    true := by decide +kernel
  obtain ⟨session, present⟩ := Option.isSome_iff_exists.mp kept
  exact ⟨session, present, (dot_session_in_sync [.ok samplePeer] [sampleCall]).1 session present⟩

end DotState

end Commeatus.Dns
