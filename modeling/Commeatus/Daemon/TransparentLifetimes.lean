import Commeatus.Lib.Leases
import Commeatus.Daemon.TransparentLog

/-!
How long the transparent listener keeps a client.

A client is a lease: it lapses 120 seconds after the last datagram that its
route took or the last reply that went out to it whole. A client that is not
served goes at the first cleanup behind its deadline and not before, and the
poll never waits longer than for the first deadline.
-/

namespace Commeatus.Daemon.TransparentUdp

open Commeatus.Lib Commeatus.Core
open Relation (ReflTransGen)

variable {ε ω : Type} {outbounds : Outbounds ε ω}

/-! ### Clients as leases -/

/-- When a client was last active, if it is there. -/
def lastActivity (clients : Map SocketAddr (ClientState ε)) (client : SocketAddr) : Option Nat :=
  (clients.lookup client).map ClientState.lastActivity

section Clients

variable (clients : Map SocketAddr (ClientState ε)) (client other : SocketAddr)

@[simp] theorem lastActivity_insert (state : ClientState ε) :
    lastActivity (clients.insert client state) other =
      if other = client then some state.lastActivity else lastActivity clients other := by
  unfold lastActivity
  rw [Map.lookup_insert]
  split <;> rfl

@[simp] theorem lastActivity_erase :
    lastActivity (clients.erase client) other = if other = client then
      none else lastActivity clients other := by
  unfold lastActivity
  rw [Map.lookup_erase]
  split <;> rfl

variable {clients client}

/-- New routes do not make a client active. -/
theorem lastActivity_routes {state : ClientState ε} (found : clients.lookup client = some state)
    (routes : DatagramRouteSet ε) :
    lastActivity (clients.insert client { state with routes }) other =
      lastActivity clients other := by
  rw [lastActivity_insert]
  split
  · rename_i same
    rw [same, lastActivity, found]
    rfl
  · rfl

end Clients

theorem dropClient_clients (s : Listener ε ω) (client : SocketAddr) :
    (dropClient s client).clients = s.clients.erase client := by
  cases found : s.clients.lookup client with
  | none =>
      rw [dropClient, found]
      refine (AList.ext ?_).symm
      exact List.kerase_of_notMem_keys (AList.lookup_eq_none.mp found)
  | some state => rw [dropClient, found]

theorem cleanupIdleClients_clients (now : Nat) (s : Listener ε ω) :
    (cleanupIdleClients now s).clients =
      ((s.clients.entries.filter fun entry =>
        decide (clientIdleTimeout ≤ now - entry.2.lastActivity)).map (·.1)).foldl
        (fun clients client => clients.erase client) s.clients := by
  have drops : ∀ (expired : List SocketAddr) (s : Listener ε ω),
      (expired.foldl dropClient s).clients =
          expired.foldl (fun clients client => clients.erase client) s.clients := by
    intro expired
    induction expired with
    | nil => exact fun _ => rfl
    | cons client expired ih =>
        intro s
        rw [List.foldl_cons, ih, dropClient_clients, List.foldl_cons]
  exact drops _ s

/-- A cleanup drops the clients that are overdue at its reading. -/
theorem lastActivity_cleanup (now : Nat) (s : Listener ε ω) (client : SocketAddr) :
    lastActivity (cleanupIdleClients now s).clients client =
      (lastActivity s.clients client).filter fun last =>
        !decide (clientIdleTimeout ≤ now - last) := by
  rw [cleanupIdleClients_clients, lastActivity]
  rw [Map.lookup_erase_where fun state : ClientState ε =>
    decide (clientIdleTimeout ≤ now - state.lastActivity)]
  rw [lastActivity, Option.filter_map]
  rfl

/-- A client lapses at most. -/
abbrev Unused (new : List Moment) (s s' : Timed ε ω) (client : SocketAddr) : Prop :=
  Lapses clientIdleTimeout (readings new) (lastActivity s.clients client)
    (lastActivity s'.clients client)

theorem Unused.of_same {new : List Moment} {s s' : Timed ε ω} {client : SocketAddr}
    (same : lastActivity s'.clients client = lastActivity s.clients client) :
    Unused new s s' client := by
  unfold Unused
  rw [same]
  exact .stays _

/-! ### Datagrams of the clients -/

variable {env : Env ω} {runtime : Runtime}

/-- What a client is entered behind: a cleanup at a reading of the clock. -/
theorem insertClient_log {client : SocketAddr} {s s' : Timed ε ω} {result : Except IoError Bool}
    (inserts : insertClient env.timed client s = some (result, s')) :
    ∃ now, (result = .ok false ∧ s'.world.2 = s.world.2 ++ [.reading now] ∧
        s'.clients = (cleanupIdleClients now s).clients) ∨
      ∃ last, result = .ok true ∧ s'.world.2 = s.world.2 ++ [.reading now, .reading last] ∧
        s'.clients = (cleanupIdleClients now s).clients.insert client { lastActivity := last } := by
  have cleans : ∀ (now : Nat) (world : ω × List Moment),
      (cleanupIdleClients now { s with world }).clients = (cleanupIdleClients now s).clients := by
    intro now world
    rw [cleanupIdleClients_clients, cleanupIdleClients_clients]
  rcases Run.bind_eq_some inserts with ⟨now, s₁, clock, rest⟩ | ⟨e, clock, -⟩
  · cases clock
    refine ⟨(env.now s.world.1).1, ?_⟩
    rcases Run.bind_eq_some rest with ⟨_, s₂, cleanup, last⟩ | ⟨e, cleanup, -⟩
    · cases cleanup
      dsimp only at last
      split at last
      · cases last
        refine .inl ⟨rfl, ?_, cleans _ _⟩
        rw [cleanupIdleClients_world]
        rfl
      · cases last
        refine .inr ⟨_, rfl, ?_, congrArg (AList.insert client _) (cleans _ _)⟩
        rw [cleanupIdleClients_world]
        exact List.append_assoc _ _ _
    · cases cleanup
  · cases clock

/-- What handling a datagram does: it is in the log if its route took it, and then its client is
there; no other client does more than lapse. -/
structure Handled (client : SocketAddr) (accepted : Bool) (new : List Moment)
    (s s' : Timed ε ω) : Prop where
  log : s'.world.2 = s.world.2 ++ new
  only : ∀ moment ∈ new, moment = .handed ∨ ∃ now, moment = .reading now
  handed : .handed ∈ new ↔ accepted = true
  there : accepted = true → (s'.clients.lookup client).isSome
  others : ∀ other, other ≠ client ∨ accepted = false → Unused new s s' other

/-- The send for a client: it stays as it was, unless it was entered for a datagram that is not
taken. -/
theorem sendInbound_handled {inserted : Bool} {client : SocketAddr}
    {endpoint : Endpoint} {target : Target}
    {payload : Bytes} {s s' : Timed ε ω} {result : Except IoError Bool}
    (sent : sendInbound (timedOutbounds outbounds) inserted client endpoint target payload s =
      some (result, s')) :
    ∃ accepted, result = .ok accepted ∧
      s'.world.2 = s.world.2 ++ (if accepted then [.handed] else []) ∧
      (accepted = true → (s'.clients.lookup client).isSome) ∧
      ∀ other, lastActivity s'.clients other =
        if inserted = true ∧ accepted = false ∧ other = client then
          none else lastActivity s.clients other := by
  cases sendInbound_ends (timedOutbounds outbounds) sent with
  | noClient absent =>
      refine ⟨false, rfl, (List.append_nil _).symm, nofun, fun other => ?_⟩
      split
      · rename_i removed
        rw [removed.2.2, lastActivity, absent]
        rfl
      · rfl
  | accepted found sending =>
      refine ⟨true, rfl, ?_, fun _ => ?_, fun other => ?_⟩
      · rw [rememberTokens_world]
        exact sendWith_log sending
      · rw [rememberTokens_clients, withEgress, Map.lookup_insert, if_pos rfl]
        rfl
      · rw [rememberTokens_clients, if_neg (by simp)]
        exact lastActivity_routes other found _
  | removed new found sending =>
      refine ⟨false, rfl, sendWith_log sending, nofun, fun other => ?_⟩
      rw [lastActivity_erase]
      by_cases same : other = client
      · rw [if_pos same, if_pos ⟨new, rfl, same⟩]
      · rw [if_neg same, if_neg fun removed => same removed.2.2]
        exact lastActivity_routes other found _
  | remains known found sending =>
      refine ⟨false, rfl, sendWith_log sending, nofun, fun other => ?_⟩
      rw [known, if_neg (by simp)]
      exact lastActivity_routes other found _

theorem handleInbound_handled {received : ReceivedTransparentDatagram} {s s' : Timed ε ω}
    {result : Except IoError Bool}
    (handled : handleInbound env.timed runtime (timedOutbounds outbounds) received s =
      some (result, s')) :
    ∃ accepted new, result = .ok accepted ∧ Handled received.client accepted new s s' := by
  cases handleInbound_ends env.timed runtime (timedOutbounds outbounds) handled with
  | unplanned selected =>
      exact ⟨false, [], rfl, (List.append_nil _).symm, nofun, ⟨nofun, nofun⟩, nofun,
        fun _ _ => .stays _⟩
  | known selected found sent =>
      obtain ⟨accepted, rfl, log, there, same⟩ := sendInbound_handled sent
      refine ⟨accepted, _, rfl, log, ?_, ?_, there, fun other _ => ?_⟩
      · cases accepted <;> simp
      · cases accepted <;> simp
      · exact .of_same (same other)
  | full selected absent inserts =>
      obtain ⟨now, ⟨-, log, clients⟩ | ⟨last, no, -⟩⟩ := insertClient_log inserts
      · refine ⟨false, [.reading now], rfl, log, by simp, by simp, nofun, fun other _ => ?_⟩
        rw [Unused, clients, lastActivity_cleanup]
        exact Lapses.cleanup (mem_readings.mpr List.mem_cons_self) _
      · cases no
  | entered selected absent inserts sent =>
      obtain ⟨now, ⟨no, -⟩ | ⟨last, -, log, clients⟩⟩ := insertClient_log inserts
      · cases no
      obtain ⟨accepted, rfl, log', there, same⟩ := sendInbound_handled sent
      have read :
          now ∈ readings ([.reading now, .reading last] ++ if accepted then [.handed] else []) :=
        mem_readings.mpr List.mem_cons_self
      refine ⟨accepted, [.reading now, .reading last] ++ if accepted then [.handed] else [], rfl,
        ⟨?_, ?_, ?_, there, fun other which => ?_⟩⟩
      · rw [log', log, List.append_assoc]
        rfl
      · cases accepted <;> simp
      · cases accepted <;> simp
      · unfold Unused
        generalize readings _ = seen at read ⊢
        rw [same other, clients, lastActivity_insert, lastActivity_cleanup]
        by_cases own : other = received.client
        · -- the client was not there before, and is not there now
          have refused : accepted = false := which.resolve_left fun distinct => distinct own
          rw [if_pos ⟨rfl, refused, own⟩, own, lastActivity, absent]
          exact .stays none
        · rw [if_neg fun removed => own removed.2.2, if_neg own]
          exact Lapses.cleanup read _

/-! ### Steps -/

/-- The client is served: its datagram was taken by its route, or a reply went out to it whole. -/
def Serves (moments : List Moment) (client : SocketAddr) : Prop :=
  .received client ∈ moments ∧ .handed ∈ moments ∨ ∃ source, .replied source client ∈ moments

/-- What a step does to the clients: who is served is active at the last reading, and nobody else
does more than lapse. -/
structure Lives (new : List Moment) (s s' : Timed ε ω) : Prop where
  log : s'.world.2 = s.world.2 ++ new
  served : ∀ client, Serves new client →
    ∃ now, new.getLast? = some (.reading now) ∧ lastActivity s'.clients client = some now
  unserved : ∀ client, ¬Serves new client → Unused new s s' client

/-- Nobody is served and nothing changes but the log. -/
theorem Lives.of_same {new : List Moment} {s s' : Timed ε ω} (log : s'.world.2 = s.world.2 ++ new)
    (nobody : ∀ client, ¬Serves new client)
      (same : ∀ client, lastActivity s'.clients client = lastActivity s.clients client) :
    Lives new s s' :=
  ⟨log, fun client serves => absurd serves (nobody client), fun client _ => .of_same (same client)⟩

theorem not_serves_nil (client : SocketAddr) : ¬Serves [] client := by
  rintro (⟨no, -⟩ | ⟨source, no⟩)
  · cases no
  · cases no

theorem touch_log {client : SocketAddr} {s s' : Timed ε ω} {result : Except IoError Unit}
    (there : (s.clients.lookup client).isSome)
    (touched : touch env.timed client s = some (result, s')) :
    ∃ now, s'.world.2 = s.world.2 ++ [.reading now] ∧
      ∀ other, lastActivity s'.clients other = if other = client then some now
        else lastActivity s.clients other := by
  unfold touch at touched
  split at touched
  · rename_i absent
    rw [absent] at there
    cases there
  · cases touched
    exact ⟨_, rfl, fun other => lastActivity_insert _ _ _ _⟩

/-- A message of a client and what handling it adds to the log serve the client if its datagram is
taken, and nobody else. -/
theorem Handled.serves {client : SocketAddr} {accepted : Bool}
    {new more : List Moment} {s s' : Timed ε ω}
    (handled : Handled client accepted new s s')
    (clock : ∀ moment ∈ more, ∃ now, moment = .reading now)
    (other : SocketAddr) :
    Serves ([.received client] ++ new ++ more) other ↔ other = client ∧ accepted = true := by
  have cases : ∀ moment ∈ [.received client] ++ new ++ more, moment = .received client ∨
      (moment = .handed ∧ accepted = true) ∨ ∃ now, moment = .reading now := by
    intro moment member
    rcases List.mem_append.mp member with before | last
    · rcases List.mem_append.mp before with first | handling
      · exact .inl (List.mem_singleton.mp first)
      · rcases handled.only moment handling with rfl | reading
        · exact .inr (.inl ⟨rfl, handled.handed.mp handling⟩)
        · exact .inr (.inr reading)
    · exact .inr (.inr (clock moment last))
  constructor
  · rintro (⟨received, handed⟩ | ⟨source, replied⟩)
    · rcases cases _ received with same | ⟨no, -⟩ | ⟨now, no⟩
      · cases same
        rcases cases _ handed with no | ⟨-, accepted⟩ | ⟨now, no⟩
        · cases no
        · exact ⟨rfl, accepted⟩
        · cases no
      · cases no
      · cases no
    · rcases cases _ replied with no | ⟨no, -⟩ | ⟨now, no⟩
      · cases no
      · cases no
      · cases no
  · rintro ⟨rfl, accepted⟩
    have handed := handled.handed.mpr accepted
    exact .inl ⟨by simp, by simp [handed]⟩

/-- A read of a datagram serves its client if its route takes the datagram. -/
theorem receiveInbound_lives {burst : Nat} {events : List PollEvent} {s s' : Timed ε ω}
    {result : Except IoError Point}
    (proceeded : receiveInbound env.timed runtime (timedOutbounds outbounds) burst events s =
      some (result, s')) :
    ∃ new, Lives new s s' := by
  cases receiveInbound_cases env.timed runtime (timedOutbounds outbounds) proceeded with
  | failed answer =>
      obtain ⟨new, log, unhanded, unreplied, -⟩ := recvOriginalDatagram_log answer
      refine ⟨new, .of_same log ?_ fun _ => rfl⟩
      rintro client (⟨-, no⟩ | ⟨source, no⟩)
      · exact unhanded no
      · exact unreplied _ _ no
  | drained answer =>
      obtain ⟨new, log, unhanded, unreplied, -⟩ := recvOriginalDatagram_log answer
      refine ⟨new, .of_same log ?_ fun _ => rfl⟩
      rintro client (⟨-, no⟩ | ⟨source, no⟩)
      · exact unhanded no
      · exact unreplied _ _ no
  | @arrived received world accepted s₁ _ answer handled touched =>
      obtain ⟨sender, log, -, -, is⟩ := recvOriginalDatagram_log answer
      cases is received rfl
      obtain ⟨_, new, same, handling⟩ := handleInbound_handled handled
      cases same
      cases accepted with
      | false =>
          cases touched
          refine ⟨[.received received.client] ++ new ++ [], ?_, fun client serves => ?_,
            fun client _ => ?_⟩
          · rw [handling.log, log, List.append_nil, List.append_assoc]
          · exact absurd ((handling.serves (by simp) client).mp serves).2 Bool.false_ne_true
          · refine (handling.others client (.inr rfl)).mono ?_
            rw [readings_append, readings_append]
            exact fun time member => List.mem_append_left _ (List.mem_append_right _ member)
      | true =>
          obtain ⟨now, last, clients⟩ := touch_log (handling.there rfl) touched
          have clock : ∀ moment ∈ [Moment.reading now], ∃ now, moment = .reading now :=
            fun moment member => ⟨now, List.mem_singleton.mp member⟩
          refine ⟨[.received received.client] ++ new ++ [.reading now], ?_, fun client serves => ?_,
            fun client not => ?_⟩
          · rw [last, handling.log, log]
            simp
          · obtain ⟨own, -⟩ := (handling.serves clock client).mp serves
            exact ⟨now, List.getLast?_concat, by rw [clients, if_pos own]⟩
          · have other : client ≠ received.client :=
              fun own => not ((handling.serves clock client).mpr ⟨own, rfl⟩)
            unfold Unused
            rw [clients, if_neg other]
            refine (handling.others client (.inl other)).mono ?_
            rw [readings_append, readings_append]
            exact fun time member => List.mem_append_left _ (List.mem_append_right _ member)

/-- A poll: the wait is that for the first deadline, and nothing that is overdue is there behind
it. -/
inductive Polled (s s' : Listener ε ω) : List Moment → Except IoError Point → Prop where
  | failed (now : Nat) (e : IoError) (clients : s'.clients = s.clients)
      (sockets : s'.replySockets = s.replySockets) :
      Polled s s' [.reading now, .waits (nextClientTimeout s.clients now)] (.error e)
  | interrupted (now : Nat) (clients : s'.clients = s.clients)
      (sockets : s'.replySockets = s.replySockets) :
      Polled s s' [.reading now, .waits (nextClientTimeout s.clients now)] (.ok .top)
  | woken (earlier now burst : Nat) (events : List PollEvent)
      (clients : ∀ client, lastActivity s'.clients client =
        (lastActivity s.clients client).filter fun last => !decide (clientIdleTimeout ≤ now - last))
      (sockets : s'.replySockets = cleanupExpired now s.replySockets) :
      Polled s s' [.reading earlier, .waits (nextClientTimeout s.clients earlier), .reading now]
        (.ok (.inbound burst events))

theorem cleanupIdleClients_sockets (now : Nat) (s : Listener ε ω) :
    (cleanupIdleClients now s).replySockets = s.replySockets := by
  refine cleanupIdleClients_induction (P := fun s' => s'.replySockets = s.replySockets) ?_ now rfl
  intro s' client state found same
  rw [dropClient, found]
  exact same

theorem pollEvents_polled {s s' : Timed ε ω} {result : Except IoError Point}
    (proceeded : pollEvents env.timed s = some (result, s')) :
    ∃ new, s'.world.2 = s.world.2 ++ new ∧ Polled s s' new result := by
  rcases Run.bind_eq_some proceeded with ⟨now, s₁, clock, rest⟩ | ⟨e, clock, -⟩
  · cases clock
    dsimp only at rest
    split at rest
    · rename_i answer
      have log := Env.timed_poll answer
      split at rest
      · cases rest
        refine ⟨_, ?_, .interrupted (env.now s.world.1).1 rfl rfl⟩
        simpa using log
      · cases rest
        refine ⟨_, ?_, .failed (env.now s.world.1).1 _ rfl rfl⟩
        simpa using log
    · rename_i events world answer
      have log := Env.timed_poll answer
      cases rest
      refine ⟨_, ?_, .woken (env.now s.world.1).1 (env.now world.1).1 _ _ (fun client => ?_) ?_⟩
      · dsimp only
        rw [cleanupIdleClients_world]
        simpa using congrArg (· ++ [Moment.reading (env.now world.1).1]) log
      · exact lastActivity_cleanup _ _ client
      · exact congrArg (cleanupExpired _) (cleanupIdleClients_sockets _ _)
  · cases clock

/-- A wait that ends with the first deadline: it is the least time that a client has left, and has
no end if there is no client. -/
structure FirstDeadline (clients : Map SocketAddr (ClientState ε)) (now : Nat)
    (timeout : Option Nat) : Prop where
  endless : timeout = none ↔ ∀ client, lastActivity clients client = none
  least : ∀ wait, timeout = some wait ↔
    (∃ client last, lastActivity clients client = some last ∧
      wait = clientIdleTimeout - (now - last)) ∧
      ∀ client last, lastActivity clients client = some last →
        wait ≤ clientIdleTimeout - (now - last)

theorem nextClientTimeout_firstDeadline (clients : Map SocketAddr (ClientState ε)) (now : Nat) :
    FirstDeadline clients now (nextClientTimeout clients now) := by
  have entry : ∀ left, left ∈
    clients.entries.map (fun entry => clientIdleTimeout - (now - entry.2.lastActivity)) ↔
      ∃ client last, lastActivity clients client = some last ∧
          left = clientIdleTimeout - (now - last) := by
    intro left
    rw [List.mem_map]
    constructor
    · rintro ⟨⟨client, state⟩, member, rfl⟩
      exact ⟨client, state.lastActivity, by
        rw [lastActivity, Map.mem_entries_iff.mp member]; rfl, rfl⟩
    · rintro ⟨client, last, found, rfl⟩
      obtain ⟨state, there, rfl⟩ := Option.map_eq_some_iff.mp found
      exact ⟨⟨client, state⟩, Map.mem_entries_iff.mpr there, rfl⟩
  constructor
  · rw [nextClientTimeout, List.min?_eq_none_iff, List.eq_nil_iff_forall_not_mem]
    constructor
    · intro nobody client
      cases found : lastActivity clients client with
      | none => rfl
      | some last => exact absurd ((entry _).mpr ⟨client, last, found, rfl⟩) (nobody _)
    · intro nobody left member
      obtain ⟨client, last, found, -⟩ := (entry left).mp member
      rw [nobody] at found
      cases found
  · intro timeout
    rw [nextClientTimeout, List.min?_eq_some_iff, entry]
    refine and_congr_right fun _ => ⟨?_, ?_⟩
    · exact fun least client last found => least _ ((entry _).mpr ⟨client, last, found, rfl⟩)
    · intro least left member
      obtain ⟨client, last, found, rfl⟩ := (entry left).mp member
      exact least client last found

theorem Polled.lives {s s' : Timed ε ω} {new : List Moment} {result : Except IoError Point}
    (log : s'.world.2 = s.world.2 ++ new) (polled : Polled s s' new result) : Lives new s s' := by
  cases polled with
  | failed now e clients sockets =>
      exact .of_same log (by simp [Serves]) fun client => by rw [clients]
  | interrupted now clients sockets =>
      exact .of_same log (by simp [Serves]) fun client => by rw [clients]
  | woken earlier now burst events clients sockets =>
      refine ⟨log, fun client serves => ?_, fun client _ => ?_⟩
      · simp [Serves] at serves
      · rw [Unused, clients]
        exact Lapses.cleanup (mem_readings.mpr (by simp)) _

/-- A reply serves its client if it goes out whole, and nobody else. -/
theorem Replied.serves {client : SocketAddr} {result : Except IoError Unit}
    {new more : List Moment} {s s' : Timed ε ω}
    (replied : Replied client result new s s')
    (clock : ∀ moment ∈ more, ∃ now, moment = .reading now)
    (other : SocketAddr) : Serves (new ++ more) other ↔ other = client ∧ result = .ok () := by
  have cases : ∀ moment ∈ new ++ more, (∃ now, moment = .reading now) ∨
    (∃ source, moment = .bound source) ∨
      ∃ source, moment = .replied source client ∧ moment ∈ new := by
    intro moment member
    rcases List.mem_append.mp member with first | last
    · rcases replied.only moment first with reading | bound | ⟨source, same⟩
      · exact .inl reading
      · exact .inr (.inl bound)
      · exact .inr (.inr ⟨source, same, first⟩)
    · exact .inl (clock moment last)
  constructor
  · rintro (⟨received, -⟩ | ⟨source, sent⟩)
    · rcases cases _ received with ⟨now, no⟩ | ⟨source, no⟩ | ⟨source, no, -⟩
      · cases no
      · cases no
      · cases no
    · rcases cases _ sent with ⟨now, no⟩ | ⟨source, no⟩ | ⟨source, same, member⟩
      · cases no
      · cases no
      · cases same
        exact ⟨rfl, replied.replied.mp ⟨_, member⟩⟩
  · rintro ⟨rfl, whole⟩
    obtain ⟨source, member⟩ := replied.replied.mpr whole
    exact .inr ⟨source, List.mem_append_left _ member⟩

/-- What a receive gave serves the client of the route, if the reply goes out whole. -/
theorem answer_lives {token : Nat} {client : SocketAddr}
    {ready : List (Nat × SocketAddr)} {burst : Nat}
    {received : Option ReceivedDatagram} {s s' : Timed ε ω} {result : Except IoError Point}
    (there : (s.clients.lookup client).isSome)
    (answered : answer env.timed token client ready burst received s = some (result, s')) :
    ∃ new, Lives new s s' := by
  cases received with
  | none =>
      cases answered
      exact ⟨[], .of_same (List.append_nil _).symm not_serves_nil fun _ => rfl⟩
  | some received =>
      rcases Run.bind_eq_some answered with ⟨sent, s₁, replies, rest⟩ | ⟨e, replies, -⟩
      · obtain ⟨outcome, reply, ends⟩ := Run.of_succeeds replies
        obtain ⟨new, replied⟩ := (sendReply_cases reply).log
        cases ends
        rcases Run.bind_eq_some rest with ⟨_, s₂, touched, last⟩ | ⟨e, touched, -⟩
        · cases last
          cases outcome with
          | error e =>
              cases touched
              refine ⟨new ++ [], .of_same (by rw [replied.log, List.append_nil])
                (fun other serves => ?_) fun other => ?_⟩
              · cases ((replied.serves (by simp) other).mp serves).2
              · rw [replied.clients]
          | ok done =>
              obtain ⟨now, log, clients⟩ := touch_log (by rw [replied.clients]; exact there) touched
              have clock : ∀ moment ∈ [Moment.reading now], ∃ now, moment = .reading now :=
                fun moment member => ⟨now, List.mem_singleton.mp member⟩
              refine ⟨new ++ [.reading now], ?_, fun other serves => ?_, fun other not => ?_⟩
              · rw [log, replied.log, List.append_assoc]
              · obtain ⟨own, -⟩ := (replied.serves clock other).mp serves
                exact ⟨now, List.getLast?_concat, by rw [clients, if_pos own]⟩
              · have distinct : other ≠ client :=
                  fun own => not ((replied.serves clock other).mpr ⟨own, rfl⟩)
                refine .of_same ?_
                rw [clients, if_neg distinct, replied.clients]
        · exact absurd touched ((touch_never env.timed client).when _ _)
      · obtain ⟨_, -, no⟩ := Run.of_succeeds replies
        cases no

/-- Every step serves some clients, and lets others lapse at most. -/
theorem step_lives {point point' : Point} {s s' : Timed ε ω}
    (stepped : step env.timed runtime (timedOutbounds outbounds) point s = some (point', s')) :
    ∃ new, Lives new s s' := by
  obtain ⟨result, proceeded⟩ := proceed_of_step stepped
  match point with
  | .top =>
      obtain ⟨new, log, polled⟩ := pollEvents_polled proceeded
      exact ⟨new, polled.lives log⟩
  | .inbound 0 events =>
      cases proceeded
      exact ⟨[], .of_same (List.append_nil _).symm not_serves_nil fun _ => rfl⟩
  | .inbound (burst + 1) events => exact receiveInbound_lives proceeded
  | .outbound [] burst =>
      cases proceeded
      exact ⟨[], .of_same (List.append_nil _).symm not_serves_nil fun _ => rfl⟩
  | .outbound (entry :: ready) 0 =>
      cases proceeded
      exact ⟨[], .of_same (List.append_nil _).symm not_serves_nil fun _ => rfl⟩
  | .outbound ((token, client) :: ready) (burst + 1) =>
      cases found : s.clients.lookup client with
      | none =>
          rw [proceed] at proceeded
          dsimp only at proceeded
          rw [found] at proceeded
          cases proceeded
          exact ⟨[], .of_same (List.append_nil _).symm not_serves_nil fun _ => rfl⟩
      | some state =>
          rw [proceed_receive _ _ _ found] at proceeded
          have receives : ∀ {s₁ : Timed ε ω} {got : Except IoError (Option ReceivedDatagram)},
              receiveOutbound (timedOutbounds outbounds) client state token s = some (got, s₁) →
                s₁.world.2 = s.world.2 ∧ (s₁.clients.lookup client).isSome ∧
                  ∀ other, lastActivity s₁.clients other = lastActivity s.clients other := by
            intro s₁ got received
            obtain ⟨out, taken, rfl⟩ := Run.of_zoom received
            refine ⟨receiveReady_log taken, ?_, fun other => lastActivity_routes other found _⟩
            rw [Map.lookup_insert, if_pos rfl]
            rfl
          rcases Run.bind_eq_some proceeded with ⟨received, s₁, first, rest⟩ | ⟨e, first, -⟩
          · obtain ⟨log, there, same⟩ := receives first
            obtain ⟨new, lives⟩ := answer_lives there rest
            refine ⟨new, ?_, lives.served, fun other not => ?_⟩
            · rw [lives.log, log]
            · rw [Unused, ← same other]
              exact lives.unserved other not
          · obtain ⟨log, -, same⟩ := receives first
            exact ⟨[], .of_same (by rw [log, List.append_nil]) not_serves_nil same⟩
  | .returned result =>
      cases proceeded
      exact ⟨[], .of_same (List.append_nil _).symm not_serves_nil fun _ => rfl⟩

/-- A step from the top is a poll; it has woken if it goes on with the datagrams of the clients. -/
theorem step_polled {point' : Point} {s s' : Timed ε ω}
    (stepped : step env.timed runtime (timedOutbounds outbounds) .top s = some (point', s')) :
    ∃ new result, s'.world.2 = s.world.2 ++ new ∧ Polled s s' new result ∧
      ∀ burst events, point' = .inbound burst events → result = .ok (.inbound burst events) := by
  rcases step_cases _ _ _ stepped with proceeded | ⟨e, rfl, proceeded⟩
  · obtain ⟨new, log, polled⟩ := pollEvents_polled proceeded
    exact ⟨new, _, log, polled, fun burst events same => by rw [same]⟩
  · obtain ⟨new, log, polled⟩ := pollEvents_polled proceeded
    refine ⟨new, _, log, polled, fun burst events no => ?_⟩
    cases no

/-! ### Runs -/

/-- A step that does not serve the client. -/
def Unserved (env : Env ω) (runtime : Runtime) (outbounds : Outbounds ε ω) (client : SocketAddr)
    (a b : Point × Timed ε ω) : Prop :=
  step env.timed runtime (timedOutbounds outbounds) a.1 a.2 = some b ∧
    ∃ new, b.2.world.2 = a.2.world.2 ++ new ∧ ¬Serves new client

theorem Unserved.run {client : SocketAddr} {a b : Point × Timed ε ω}
    (run : ReflTransGen (Unserved env runtime outbounds client) a b) :
    ∃ new, readings b.2.world.2 = readings a.2.world.2 ++ new ∧
      Lapses clientIdleTimeout new (lastActivity a.2.clients client)
        (lastActivity b.2.clients client) := by
  have each : ∀ a b, Unserved env runtime outbounds client a b →
      ∃ new, readings b.2.world.2 = readings a.2.world.2 ++ new ∧
        Lapses clientIdleTimeout new (lastActivity a.2.clients client)
            (lastActivity b.2.clients client) := by
    rintro a b ⟨stepped, new, log, not⟩
    obtain ⟨new', lives⟩ := step_lives stepped
    have same : new' = new := List.append_cancel_left (lives.log.symm.trans log)
    subst same
    exact ⟨readings new', by rw [log, readings_append], lives.unserved client not⟩
  exact Lapses.run each run

/-- The last activity of a client is a reading of the clock. -/
theorem Reaches.active {world : ω} {point : Point} {s : Timed ε ω}
    (reached : Reaches env.timed runtime (timedOutbounds outbounds) (fun _ _ => True)
      { world := (world, []) } point s) :
    ∀ client last, lastActivity s.clients client = some last → last ∈ readings s.world.2 := by
  refine reached.invariant _ _ _ (I := fun _ s => ∀ client last,
    lastActivity s.clients client = some last → last ∈ readings s.world.2) ?_ ?_
  · nofun
  · intro point s point' s' active _ stepped client last found
    obtain ⟨new, lives⟩ := step_lives stepped
    rw [lives.log, readings_append]
    by_cases serves : Serves new client
    · obtain ⟨now, latest, same⟩ := lives.served client serves
      cases same.symm.trans found
      exact List.mem_append_right _ (mem_readings.mpr (List.mem_of_getLast? latest))
    · have lapses := lives.unserved client serves
      rw [Unused, found] at lapses
      exact List.mem_append_left _ (active client last lapses.eq_of_some)

/-- In every run: a client was last active at a reading of the clock; through steps that do not
serve it, it stays as it is, or goes when a reading is 120 seconds or more behind its last activity;
a step that serves it makes it active at the last reading of the step; and a poll waits for the
first deadline and leaves exactly those who are not overdue at the reading behind it. -/
theorem unserved_clients_lapse (env : Env ω) (runtime : Runtime)
    (outbounds : Outbounds ε ω) {world : ω}
    {point : Point} {s : Timed ε ω}
    (reached : Reaches env.timed runtime (timedOutbounds outbounds) (fun _ _ => True)
      { world := (world, []) } point s) :
    (∀ client last, lastActivity s.clients client = some last → last ∈ readings s.world.2) ∧
    (∀ client point' s', ReflTransGen (Unserved env runtime outbounds client)
      (point, s) (point', s') →
      ∃ new, readings s'.world.2 = readings s.world.2 ++ new ∧
        Lapses clientIdleTimeout new (lastActivity s.clients client)
          (lastActivity s'.clients client)) ∧
    ∀ point' s', step env.timed runtime (timedOutbounds outbounds) point s = some (point', s') →
      ∃ new, s'.world.2 = s.world.2 ++ new ∧
        (∀ client, Serves new client →
          ∃ now, new.getLast? = some (.reading now) ∧ lastActivity s'.clients client = some now) ∧
        (point = .top → ∃ earlier timeout more, new = .reading earlier :: .waits timeout :: more ∧
          FirstDeadline s.clients earlier timeout ∧
          ∀ burst events, point' = .inbound burst events → ∃ now, more = [.reading now] ∧
            ∀ client last, lastActivity s'.clients client = some last ↔
              lastActivity s.clients client = some last ∧ now - last < clientIdleTimeout) := by
  refine ⟨reached.active, fun client point' s' run => Unserved.run run, fun point' s' stepped => ?_⟩
  obtain ⟨new, lives⟩ := step_lives stepped
  refine ⟨new, lives.log, lives.served, ?_⟩
  rintro rfl
  obtain ⟨new', result, log, polled, woken⟩ := step_polled stepped
  cases List.append_cancel_left (lives.log.symm.trans log)
  cases polled with
  | failed now e clients sockets =>
      refine ⟨now, _, [], rfl, nextClientTimeout_firstDeadline _ _, fun burst events next => ?_⟩
      cases woken burst events next
  | interrupted now clients sockets =>
      refine ⟨now, _, [], rfl, nextClientTimeout_firstDeadline _ _, fun burst events next => ?_⟩
      cases woken burst events next
  | woken earlier now burst events clients sockets =>
      refine ⟨earlier, _, _, rfl, nextClientTimeout_firstDeadline _ _,
        fun _ _ _ => ⟨now, rfl, fun client last => ?_⟩⟩
      rw [clients, Option.filter_eq_some_iff]
      simp

/-- Messages wait in the socket; without one a poll sleeps for its timeout, and only then the clock
moves. -/
def Env.sleeping : Env (List Message × Nat) where
  now world := (world.2, world)
  nextFlowId world := (1, world)
  poll timeout := fun world =>
    if world.1.isEmpty then (.ok [], (world.1, world.2 + timeout.getD 0))
    else (.ok [⟨inboundToken, { readable := true }⟩], world)
  recvmsg _ := fun world =>
    match world.1 with
    | [] => (.error .again, world)
    | message :: waiting => (.ok message, (waiting, world.2))
  bindTransparentReplySocket _ := pure ()
  replySendTo _ payload _ := pure payload.length

abbrev silent : Outbounds (Opened Unit Unit) (List Message × Nat) :=
  (OutboundRegistry.single proxyOne).outbounds (.scripted (.ok none))

/-- A client sends one datagram; the next poll sleeps for 120 seconds, and then the client is
gone. -/
theorem unserved_clients_lapse_example :
    ∃ (s s' : Timed (Opened Unit Unit) (List Message × Nat)) (new : List Nat),
      Reaches Env.sleeping.timed proxied (timedOutbounds silent) (fun _ _ => True)
        { world := (([messageFrom 1 true], 0), []) }
          (.inbound 31 [⟨inboundToken, { readable := true }⟩]) s ∧
      lastActivity s.clients ⟨.v4 ⟨10, 0, 0, 1⟩, 5000⟩ = some 0 ∧
      lastActivity s'.clients ⟨.v4 ⟨10, 0, 0, 1⟩, 5000⟩ = none ∧
      Lapses clientIdleTimeout new (lastActivity s.clients ⟨.v4 ⟨10, 0, 0, 1⟩, 5000⟩)
        (lastActivity s'.clients ⟨.v4 ⟨10, 0, 0, 1⟩, 5000⟩) := by
  have run : ∃ s, Reaches Env.sleeping.timed proxied (timedOutbounds silent) (fun _ _ => True)
        { world := (([messageFrom 1 true], 0), []) }
          (.inbound 31 [⟨inboundToken, { readable := true }⟩]) s ∧
      lastActivity s.clients ⟨.v4 ⟨10, 0, 0, 1⟩, 5000⟩ = some 0 ∧
      ∃ s', ReflTransGen (Unserved Env.sleeping proxied silent ⟨.v4 ⟨10, 0, 0, 1⟩, 5000⟩)
          (.inbound 31 [⟨inboundToken, { readable := true }⟩], s) (.inbound 0 [], s') ∧
        lastActivity s'.clients ⟨.v4 ⟨10, 0, 0, 1⟩, 5000⟩ = none := by
    refine ⟨_, .step (.step .start trivial rfl) trivial rfl, rfl, _,
      .tail (.tail (.tail .refl ⟨rfl, [], rfl, ?_⟩) ⟨rfl, [], rfl, ?_⟩)
      ⟨rfl, [.reading 0, .waits (some clientIdleTimeout), .reading clientIdleTimeout], rfl, ?_⟩,
        rfl⟩
    · exact not_serves_nil _
    · exact not_serves_nil _
    · simp [Serves]
  obtain ⟨s, reached, there, s', unserved, gone⟩ := run
  obtain ⟨-, lapse, -⟩ := unserved_clients_lapse Env.sleeping proxied silent reached
  obtain ⟨new, -, lapses⟩ := lapse _ _ _ unserved
  exact ⟨s, s', new, reached, there, gone, lapses⟩

end Commeatus.Daemon.TransparentUdp
