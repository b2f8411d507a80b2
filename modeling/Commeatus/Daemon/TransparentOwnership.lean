import Commeatus.Lib.Holdings
import Commeatus.Daemon.DatagramRecord

/-!
Who owns a readiness token, and where a received datagram goes.

The listener hands out tokens from one allocator, keeps them with the routes of
its clients, and leads from a token back to the client through `token_clients`.
The ledger of a run holds the tokens that were handed out and the replies that
were sent.
-/

namespace Commeatus.Daemon.TransparentUdp

open Commeatus.Lib Commeatus.Core

variable {ε ω : Type}

/-! ### The ledger -/

/-- A reply as it was handed to a reply socket. -/
structure Delivery where
  source : SocketAddr
  payload : Bytes
  client : SocketAddr

/-- The tokens of all registrations, and all replies. -/
structure Ledger where
  granted : List Nat := []
  delivered : List Delivery := []

/-- The same outbounds, with the tokens of each registration in the ledger. -/
abbrev ledgeredOutbounds (outbounds : Outbounds ε ω) : Outbounds ε (ω × Ledger) :=
  outbounds.recorded
    { registered := fun tokens ledger => { ledger with granted := ledger.granted ++ tokens } }

/-- The same outside, with each reply in the ledger. -/
abbrev Env.ledgered (env : Env ω) : Env (ω × Ledger) :=
  env.recorded
    { replied := fun source payload client _ ledger =>
        { ledger with delivered := ledger.delivered ++ [⟨source, payload, client⟩] } }

abbrev Ledgered (ε ω : Type) : Type := Listener ε (ω × Ledger)

/-! ### Holdings of a listener -/

/-- The tokens of each route. -/
def tokensAt (routes : DatagramRouteSet ε) (endpoint : Endpoint) : Option (List Nat) :=
  (routes.get endpoint).map DatagramRoute.tokens

def table (clients : Map SocketAddr (ClientState ε)) (client : SocketAddr) :
    Option (Endpoint → Option (List Nat)) :=
  (clients.lookup client).map fun state => tokensAt state.routes

def holdings (s : Ledgered ε ω) : Holdings SocketAddr Endpoint where
  table := table s.clients
  index := s.tokenClients.lookup
  granted := s.world.2.granted
  next := s.tokens.nextToken

theorem table_insert (clients : Map SocketAddr (ClientState ε)) (client : SocketAddr)
    (state : ClientState ε) :
    table (clients.insert client state) =
      Function.update (table clients) client (some (tokensAt state.routes)) := by
  funext other
  unfold table
  rw [Map.lookup_insert, Function.update_apply]
  split <;> rfl

theorem table_erase (clients : Map SocketAddr (ClientState ε)) (client : SocketAddr) :
    table (clients.erase client) = Function.update (table clients) client none := by
  funext other
  unfold table
  rw [Map.lookup_erase, Function.update_apply]
  split <;> rfl

theorem table_of_lookup {clients : Map SocketAddr (ClientState ε)} {client : SocketAddr}
    {state : ClientState ε}
    (found : clients.lookup client = some state) :
    table clients client = some (tokensAt state.routes) := by
  rw [table, found]
  rfl

/-- A client that keeps the tokens of its routes changes nothing. -/
theorem table_insert_same {clients : Map SocketAddr (ClientState ε)} {client : SocketAddr}
    {state state' : ClientState ε} (found : clients.lookup client = some state)
    (same : tokensAt state'.routes = tokensAt state.routes) :
    table (clients.insert client state') = table clients := by
  rw [table_insert, same, ← table_of_lookup found, Function.update_eq_self]

theorem tokensAt_put (routes : DatagramRouteSet ε) (endpoint : Endpoint) (route : DatagramRoute ε) :
    tokensAt (routes.put endpoint route) =
      Function.update (tokensAt routes) endpoint (some route.tokens) := by
  funext other
  unfold tokensAt DatagramRouteSet.get DatagramRouteSet.put
  rw [Map.lookup_insert, Function.update_apply]
  split <;> rfl

/-- A route that keeps its tokens changes nothing. -/
theorem tokensAt_put_same {routes : DatagramRouteSet ε} {endpoint : Endpoint}
    {route : DatagramRoute ε}
    (found : routes.get endpoint = some route) (object : ε) :
    tokensAt (routes.put endpoint { route with execution := object }) = tokensAt routes := by
  rw [tokensAt_put]
  have here : tokensAt routes endpoint = some route.tokens := by
    rw [tokensAt, found]
    rfl
  rw [← here, Function.update_eq_self]

/-- The owned tokens of a client's routes, in the holdings. -/
theorem mem_ownedTokens {s : Ledgered ε ω} {client : SocketAddr} {state : ClientState ε}
    (found : s.clients.lookup client = some state) {token : Nat} :
    token ∈ state.routes.ownedTokens ↔ ∃ endpoint, (holdings s).Owns client endpoint token := by
  unfold DatagramRouteSet.ownedTokens
  rw [List.mem_flatMap]
  constructor
  · rintro ⟨⟨endpoint, route⟩, entry, member⟩
    refine ⟨endpoint, _, route.tokens, table_of_lookup found, ?_, member⟩
    rw [tokensAt, DatagramRouteSet.get, Map.mem_entries_iff.mp entry]
    rfl
  · rintro ⟨endpoint, routes, tokens, here, held, member⟩
    have same : some (tokensAt state.routes) = some routes :=
      (table_of_lookup found).symm.trans here
    cases same
    obtain ⟨route, found', rfl⟩ := Option.map_eq_some_iff.mp held
    exact ⟨⟨endpoint, route⟩, Map.mem_entries_iff.mpr found', member⟩

/-! ### What a send does to the tokens -/

/-- Tokens are taken from the allocator and go to the ledger. -/
structure Spends (granted : List Nat) (s s' : Egress ε (ω × Ledger)) : Prop where
  run : granted = List.range' s.tokens.nextToken granted.length
  ledger : s'.world.2 = { s.world.2 with granted := s.world.2.granted ++ granted }
  next : s'.tokens.nextToken = s.tokens.nextToken + granted.length

theorem Spends.nothing {s s' : Egress ε (ω × Ledger)} (ledger : s'.world.2 = s.world.2)
    (tokens : s'.tokens = s.tokens) : Spends [] s s' := by
  constructor
  · rfl
  · rw [ledger, List.append_nil]
  · rw [tokens]
    rfl

variable {outbounds : Outbounds ε ω}

open DatagramRouteSet

/-- An opened route has the granted tokens; where opening fails they may be spent. -/
theorem openRoute_tokens {endpoint : Endpoint} {s s' : Egress ε (ω × Ledger)}
    {result : Except IoError Unit}
    (opened : openRoute (ledgeredOutbounds outbounds).execution
      (ledgeredOutbounds outbounds).openDatagram
      endpoint s = some (result, s')) :
    ∃ granted, Spends granted s s' ∧
      ((∃ e, result = .error e ∧ s'.routes = s.routes) ∨
        (result = .ok () ∧ granted ≠ [] ∧
          tokensAt s'.routes = Function.update (tokensAt s.routes) endpoint (some granted))) := by
  cases openRoute_cases opened with
  | full many => exact ⟨[], .nothing rfl rfl, .inl ⟨_, rfl, rfl⟩⟩
  | notOpened refused =>
      exact ⟨[], .nothing (openDatagram_recorded refused).2 rfl, .inl ⟨_, rfl, rfl⟩⟩
  | noTokens made refused =>
      have same := DatagramTokenAllocator.allocate_error refused
      exact ⟨[], .nothing (openDatagram_recorded made).2 same, .inl ⟨_, rfl, rfl⟩⟩
  | notRegistered made allocated refused =>
      obtain ⟨nonempty, run, next⟩ := DatagramTokenAllocator.allocate_ok allocated
      have ledger := (registerReadiness_recorded refused).2
      rw [(openDatagram_recorded made).2] at ledger
      exact ⟨_, ⟨run, ledger, next⟩, .inl ⟨_, rfl, rfl⟩⟩
  | opened made allocated registered =>
      obtain ⟨nonempty, run, next⟩ := DatagramTokenAllocator.allocate_ok allocated
      have ledger := (registerReadiness_recorded registered).2
      rw [(openDatagram_recorded made).2] at ledger
      exact ⟨_, ⟨run, ledger, next⟩, .inr ⟨rfl, nonempty, tokensAt_put _ _ _⟩⟩

theorem sendRoute_tokens {endpoint : Endpoint} {target : Target} {payload : Bytes}
    {s s' : Egress ε (ω × Ledger)} {result : Except IoError Unit}
    (sent : sendRoute (ledgeredOutbounds outbounds).execution endpoint target payload s =
      some (result, s')) :
    tokensAt s'.routes = tokensAt s.routes ∧ s'.world.2 = s.world.2 ∧ s'.tokens = s.tokens := by
  cases sendRoute_cases sent with
  | noRoute missing => exact ⟨rfl, rfl, rfl⟩
  | @sent _ _ object _ found handed =>
      exact ⟨tokensAt_put_same found object, (send_recorded handed).2, rfl⟩

/-- A send goes through the route that is there; or no route can be opened; or the new route has the
granted tokens, whether or not the datagram then goes through. -/
theorem sendWith_tokens {endpoint : Endpoint} {target : Target} {payload : Bytes}
    {s s' : Egress ε (ω × Ledger)} {result : Except IoError Unit}
    (sent : sendWith (ledgeredOutbounds outbounds).execution
      (ledgeredOutbounds outbounds).openDatagram
      endpoint target payload s = some (result, s')) :
    ((s.routes.get endpoint).isSome ∧ Spends [] s s' ∧ tokensAt s'.routes = tokensAt s.routes) ∨
    (∃ e granted, result = .error e ∧
      openRoute (ledgeredOutbounds outbounds).execution (ledgeredOutbounds outbounds).openDatagram
        endpoint s = some (.error e, s') ∧
      Spends granted s s' ∧ tokensAt s'.routes = tokensAt s.routes) ∨
    ∃ opened granted, s.routes.get endpoint = none ∧
      openRoute (ledgeredOutbounds outbounds).execution (ledgeredOutbounds outbounds).openDatagram
        endpoint s = some (.ok (), opened) ∧
      sendRoute (ledgeredOutbounds outbounds).execution endpoint target payload opened =
        some (result, s') ∧
      Spends granted s s' ∧ granted ≠ [] ∧
        tokensAt s'.routes = Function.update (tokensAt s.routes) endpoint (some granted) := by
  cases known : s.routes.get endpoint with
  | some route =>
      rcases Run.bind_eq_some sent with ⟨_, s₁, first, last⟩ | ⟨e, first, -⟩
      · rw [known] at first
        cases first
        obtain ⟨same, ledger, tokens⟩ := sendRoute_tokens last
        exact .inl ⟨rfl, .nothing ledger tokens, same⟩
      · rw [known] at first
        cases first
  | none =>
      refine .inr ?_
      rcases Run.bind_eq_some sent with ⟨_, s₁, first, last⟩ | ⟨e, first, failed⟩
      · rw [known] at first
        obtain ⟨granted, spends, ⟨e, other, -⟩ | ⟨-, nonempty, opened⟩⟩ := openRoute_tokens first
        · cases other
        · obtain ⟨same, ledger, tokens⟩ := sendRoute_tokens last
          refine .inr ⟨s₁, granted, rfl, first, last, ⟨spends.run, ?_, ?_⟩, nonempty,
            same.trans opened⟩
          · rw [ledger, spends.ledger]
          · rw [tokens, spends.next]
      · rw [known] at first
        obtain ⟨granted, spends, ⟨e', -, routes⟩ | ⟨other, -⟩⟩ := openRoute_tokens first
        · exact .inl ⟨e, granted, failed, first, spends, by rw [routes]⟩
        · cases other

/-! ### Clients that go -/

theorem dropClient_leaves {s : Ledgered ε ω} {client : SocketAddr} {state : ClientState ε}
    (found : s.clients.lookup client = some state) :
    Holdings.Leaves client (holdings s) (holdings (dropClient s client)) := by
  have dropped : dropClient s client = { s with
      clients := s.clients.erase client
      tokenClients := state.routes.ownedTokens.foldl (fun tokens token => tokens.erase token)
        s.tokenClients } := by
    rw [dropClient, found]
  rw [dropped]
  refine ⟨table_erase _ _, ?_, rfl, rfl⟩
  intro token client'
  show AList.lookup token (state.routes.ownedTokens.foldl _ s.tokenClients) = some client' ↔ _
  rw [Map.lookup_foldl_erase, ← mem_ownedTokens found]
  split
  · rename_i owned
    simp [owned]
  · rename_i free
    simp only [free, not_false_eq_true, and_true]
    rfl

/-- Tokens are in order, every client has a route, and there are at most 512 clients. -/
structure Owned (s : Ledgered ε ω) : Prop where
  sound : (holdings s).Sound outboundFirstToken
  settled : (holdings s).Settled
  bounded : s.clients.size ≤ maxClients

theorem dropClient_size_le (s : Listener ε ω) (client : SocketAddr) :
    (dropClient s client).clients.size ≤ s.clients.size := by
  unfold dropClient
  split
  · exact le_refl _
  · exact Map.size_erase_le _ _

theorem Owned.dropClient {s : Ledgered ε ω} (owned : Owned s) {client : SocketAddr}
    {state : ClientState ε}
    (found : s.clients.lookup client = some state) : Owned (dropClient s client) :=
  ⟨owned.sound.leave (dropClient_leaves found), owned.settled.leave (dropClient_leaves found),
    (dropClient_size_le s client).trans owned.bounded⟩

/-! ### Clients that come -/

variable (env : Env ω) (runtime : Runtime)

/-- What the invariant is determined by, and the replies. -/
def view (s : Ledgered ε ω) : Holdings SocketAddr Endpoint × Nat × List Delivery :=
  (holdings s, s.clients.size, s.world.2.delivered)

theorem view_of_parts {s s' : Ledgered ε ω} (clients : table s'.clients = table s.clients)
    (size : s'.clients.size = s.clients.size) (index : s'.tokenClients = s.tokenClients)
    (tokens : s'.tokens = s.tokens) (ledger : s'.world.2 = s.world.2) : view s' = view s := by
  unfold view holdings
  rw [clients, size, index, tokens, ledger]

theorem Owned.of_view {s s' : Ledgered ε ω} (same : view s' = view s)
    (owned : Owned s) : Owned s' := by
  obtain ⟨held, size, -⟩ := Prod.mk.inj same |>.imp_right Prod.mk.inj
  constructor
  · rw [held]
    exact owned.sound
  · rw [held]
    exact owned.settled
  · rw [size]
    exact owned.bounded

theorem instant_view : Run.Keeps view (instant (ε := ε) env.ledgered) := by
  intro s result s' h
  cases h
  rfl

theorem touch_view (client : SocketAddr) : Run.Keeps view (touch (ε := ε) env.ledgered client) := by
  intro s result s' h
  unfold touch at h
  split at h
  · cases h
    rfl
  · rename_i state found
    cases h
    refine view_of_parts (table_insert_same found rfl) ?_ rfl rfl rfl
    exact Map.size_insert_of_present (by rw [found]; rfl) _

theorem cleanupIdleClients_delivered (now : Nat) (s : Ledgered ε ω) :
    (cleanupIdleClients now s).world.2.delivered = s.world.2.delivered := by
  refine cleanupIdleClients_induction (P := fun s' : Ledgered ε ω => s'.world.2.delivered =
    s.world.2.delivered) ?_ now rfl
  intro s' client state found kept
  rw [dropClient, found]
  exact kept

/-- Everything but the client itself is in order. -/
structure Pending (client : SocketAddr) (s : Ledgered ε ω) : Prop where
  sound : (holdings s).Sound outboundFirstToken
  others : ∀ other routes, other ≠ client → (holdings s).table other = some routes →
    ∃ endpoint tokens, routes endpoint = some tokens
  bounded : s.clients.size ≤ maxClients

/-- The cleanup leaves an absent client absent. -/
theorem cleanupIdleClients_absent {now : Nat} {s : Ledgered ε ω} {client : SocketAddr}
    (absent : s.clients.lookup client = none) :
    (cleanupIdleClients now s).clients.lookup client = none := by
  refine cleanupIdleClients_induction (P := fun s' => s'.clients.lookup client = none) ?_ now absent
  intro s' client' state found kept
  rw [dropClient, found]
  show AList.lookup client (s'.clients.erase client') = none
  rw [Map.lookup_erase, kept, ite_self]

/-- A client is entered behind the cleanup, if there is room. -/
theorem insertClient_entered {client : SocketAddr} {s s' : Ledgered ε ω}
    {result : Except IoError Bool}
    (inserts : insertClient env.ledgered client s = some (result, s')) :
    ∃ now : Nat, ∃ s₁ : Ledgered ε ω, view s₁ = view s ∧ s₁.clients = s.clients ∧
      ((result = .ok false ∧ s' = cleanupIdleClients now s₁) ∨
        (result = .ok true ∧ (cleanupIdleClients now s₁).clients.size < maxClients ∧
          ∃ lastActivity world,
            s' = { cleanupIdleClients now s₁ with
              clients := (cleanupIdleClients now s₁).clients.insert client { lastActivity }
              world := world } ∧
            world.2 = (cleanupIdleClients now s₁).world.2)) := by
  rcases Run.bind_eq_some inserts with ⟨now, s₁, clock, rest⟩ | ⟨e, clock, -⟩
  · cases clock
    refine ⟨(env.ledgered.now s.world).1,
      { s with world := (env.ledgered.now s.world).2 }, rfl, rfl, ?_⟩
    rcases Run.bind_eq_some rest with ⟨_, s₂, cleanup, last⟩ | ⟨e, cleanup, -⟩
    · cases cleanup
      dsimp only at last
      split at last
      · cases last
        exact .inl ⟨rfl, rfl⟩
      · rename_i room
        cases last
        exact .inr ⟨rfl, Nat.lt_of_not_le room, _, _, rfl, rfl⟩
    · cases cleanup
  · cases clock

theorem Owned.cleanupIdleClients {s : Ledgered ε ω} (owned : Owned s) (now : Nat) :
    Owned (cleanupIdleClients now s) :=
  cleanupIdleClients_induction (fun _ _ _ found kept => kept.dropClient found) now owned

theorem enters_insert {s : Ledgered ε ω} {client : SocketAddr}
    (absent : s.clients.lookup client = none)
    (lastActivity : Nat) {world : ω × Ledger} (ledger : world.2 = s.world.2) :
    Holdings.Enters client (holdings s)
      (holdings
        { s with clients := s.clients.insert client { lastActivity }, world := world }) := by
  refine ⟨?_, table_insert _ _ _, rfl, ?_, rfl⟩
  · show table s.clients client = none
    rw [table, absent]
    rfl
  · exact congrArg Ledger.granted ledger

/-- A client that is entered has no routes yet, and nothing leads to it. -/
theorem Owned.enter {s : Ledgered ε ω} (owned : Owned s) {client : SocketAddr}
    (absent : s.clients.lookup client = none)
    (room : s.clients.size < maxClients) (lastActivity : Nat)
    {world : ω × Ledger} (ledger : world.2 = s.world.2) :
    Pending client { s with clients := s.clients.insert client { lastActivity }, world := world } ∧
      ∀ token, (holdings s).index token ≠ some client := by
  have enters := enters_insert absent lastActivity ledger
  refine ⟨⟨?_, ?_, ?_⟩, owned.sound.unindexed_of_absent enters.absent⟩
  · exact owned.sound.of_owns (fun _ _ _ => enters.owns_iff) enters.rest
  · intro other routes distinct found
    rw [enters.table, Function.update_of_ne distinct] at found
    exact owned.settled other routes found
  · exact (Map.size_insert_le _ _ _).trans room

/-! ### Sends -/

/-- What a send does to the holdings: tokens are spent, or none, or a route is opened with them. -/
inductive Sent (client : SocketAddr) (endpoint : Endpoint)
    (h h' : Holdings SocketAddr Endpoint) : Prop
  | spent (granted : List Nat) (grants : Holdings.Grants granted h h') (table : h'.table = h.table)
      (index : h'.index = h.index)
  | opened (granted : List Nat) (opens : Holdings.Opens client endpoint granted h h')

theorem Sent.sound {client : SocketAddr} {endpoint : Endpoint} {h h' : Holdings SocketAddr Endpoint}
    (sent : Sent client endpoint h h') {first : Nat} (sound : h.Sound first) : h'.Sound first := by
  cases sent with
  | spent granted grants table index => exact sound.grant grants table index
  | opened granted opens => exact sound.open opens

theorem Sent.index {client : SocketAddr} {endpoint : Endpoint} {h h' : Holdings SocketAddr Endpoint}
    (sent : Sent client endpoint h h') : h'.index = h.index := by
  cases sent with
  | spent granted grants table index => exact index
  | opened granted opens => exact opens.index

/-- Other clients' routes, and the client's own ones that are there, stay. -/
theorem Sent.table_of {client : SocketAddr} {endpoint : Endpoint}
    {h h' : Holdings SocketAddr Endpoint}
    (sent : Sent client endpoint h h') {other : SocketAddr} {routes' : Endpoint → Option (List Nat)}
    (found' : h'.table other = some routes') :
    ∃ routes, h.table other = some routes ∧ (other ≠ client → routes' = routes) ∧
      ∀ endpoint' tokens, routes endpoint' = some tokens → routes' endpoint' = some tokens := by
  cases sent with
  | spent granted grants table index =>
      rw [table] at found'
      exact ⟨routes', found', fun _ => rfl, fun _ _ => id⟩
  | opened granted opens =>
      obtain ⟨routes, found, vacant, table⟩ := opens.table
      rw [table] at found'
      by_cases same : other = client
      · subst same
        rw [Function.update_self] at found'
        cases found'
        refine ⟨routes, found, fun distinct => absurd rfl distinct, ?_⟩
        intro endpoint' tokens held
        rw [Function.update_of_ne, held]
        rintro rfl
        rw [vacant] at held
        cases held
      · rw [Function.update_of_ne same] at found'
        exact ⟨routes', found', fun _ => rfl, fun _ _ => id⟩

/-- The send of a client's datagram, whatever becomes of it; if it goes through, the endpoint has a
route. -/
theorem onEgress_sent {client : SocketAddr} {state : ClientState ε}
    {endpoint : Endpoint} {target : Target}
    {payload : Bytes} {s s' : Ledgered ε ω} {result : Except IoError Bool}
    (found : s.clients.lookup client = some state)
    (sending : Run.succeeds (onEgress client state (sendWith (ledgeredOutbounds outbounds).execution
      (ledgeredOutbounds outbounds).openDatagram endpoint target payload)) s = some (result, s')) :
    Sent client endpoint (holdings s) (holdings s') ∧ s'.clients.size = s.clients.size ∧
      s'.world.2.delivered = s.world.2.delivered ∧
        ∃ routes, (holdings s').table client = some routes ∧
          (result = .ok true → ∃ tokens, routes endpoint = some tokens) := by
  obtain ⟨result', out, sent, rfl, rfl⟩ := Run.of_succeeds_zoom sending
  have size : Map.size (s.clients.insert client { state with routes := out.routes }) =
      s.clients.size :=
    Map.size_insert_of_present (by rw [found]; rfl) _
  have there : table (s.clients.insert client { state with routes := out.routes }) client =
      some (tokensAt out.routes) := by
    rw [table_insert, Function.update_self]
  have delivered : ∀ {granted : List Nat}, Spends granted ⟨state.routes, s.tokens, s.world⟩ out →
      out.world.2.delivered = s.world.2.delivered := by
    intro granted spends
    rw [spends.ledger]
  rcases sendWith_tokens sent with ⟨known, spends, same⟩ | ⟨e, granted, failed, -, spends, same⟩ |
    ⟨opened, granted, vacant, -, -, spends, -, updated⟩
  · refine ⟨.spent [] ⟨rfl, ?_, spends.next⟩ (table_insert_same found same) rfl,
      size, delivered spends,
      tokensAt out.routes, there, fun _ => ?_⟩
    · exact congrArg Ledger.granted spends.ledger
    · obtain ⟨route, known⟩ := Option.isSome_iff_exists.mp known
      refine ⟨route.tokens, ?_⟩
      rw [same, tokensAt, known]
      rfl
  · refine ⟨.spent granted ⟨spends.run, ?_, spends.next⟩ (table_insert_same found same) rfl, size,
      delivered spends, tokensAt out.routes, there, ?_⟩
    · exact congrArg Ledger.granted spends.ledger
    · rw [failed]
      intro other
      cases other
  · refine ⟨.opened granted ⟨⟨spends.run, ?_, spends.next⟩, ?_, rfl⟩, size, delivered spends,
      tokensAt out.routes, there, fun _ => ?_⟩
    · exact congrArg Ledger.granted spends.ledger
    · refine ⟨tokensAt state.routes, table_of_lookup found, ?_, ?_⟩
      · show tokensAt state.routes endpoint = none
        rw [tokensAt, vacant]
        rfl
      · rw [← updated]
        exact table_insert _ _ _
    · refine ⟨granted, ?_⟩
      rw [updated, Function.update_self]

theorem rememberTokens_learns {s : Ledgered ε ω} {client : SocketAddr} {state : ClientState ε}
    (found : s.clients.lookup client = some state) :
    Holdings.Learns client (holdings s) (holdings (rememberTokens client s)) := by
  have remembered : rememberTokens client s = { s with
      tokenClients :=
        state.routes.ownedTokens.foldl (fun tokens token => tokens.insert token client)
        s.tokenClients } := by
    rw [rememberTokens, found]
  rw [remembered]
  refine ⟨?_, rfl, rfl, rfl⟩
  intro token client'
  show AList.lookup token (state.routes.ownedTokens.foldl _ s.tokenClients) = some client' ↔ _
  rw [Map.lookup_foldl_insert, ← mem_ownedTokens found]
  split
  · rename_i owned
    simp [owned, eq_comm]
  · rename_i free
    simp only [free, not_false_eq_true, and_true, and_false, false_or]
    rfl

theorem Pending.of_sent {client : SocketAddr} {endpoint : Endpoint} {s s' : Ledgered ε ω}
    (pending : Pending client s) (sent : Sent client endpoint (holdings s) (holdings s'))
    (size : s'.clients.size = s.clients.size) : Pending client s' := by
  constructor
  · exact sent.sound pending.sound
  · intro other routes' distinct found'
    obtain ⟨routes, found, same, -⟩ := sent.table_of found'
    rw [same distinct]
    exact pending.others other routes distinct found
  · rw [size]
    exact pending.bounded

theorem Owned.of_learns {client : SocketAddr} {s s' : Ledgered ε ω} (pending : Pending client s)
    (learns : Holdings.Learns client (holdings s) (holdings s'))
    (size : s'.clients.size = s.clients.size)
    {routes : Endpoint → Option (List Nat)} (there : (holdings s).table client = some routes)
    (routed : ∃ endpoint tokens, routes endpoint = some tokens) : Owned s' := by
  constructor
  · exact pending.sound.learn learns
  · intro other routes' found
    rw [learns.rest.1] at found
    by_cases same : other = client
    · subst same
      rw [there] at found
      cases found
      exact routed
    · exact pending.others other routes' same found
  · rw [size]
    exact pending.bounded

theorem Owned.of_leaves {client : SocketAddr} {s s' : Ledgered ε ω} (pending : Pending client s)
    (leaves : Holdings.Leaves client (holdings s) (holdings s'))
    (size : s'.clients.size ≤ s.clients.size) :
    Owned s' := by
  constructor
  · exact pending.sound.leave leaves
  · intro other routes found
    rw [leaves.table] at found
    by_cases same : other = client
    · subst same
      rw [Function.update_self] at found
      cases found
    · rw [Function.update_of_ne same] at found
      exact pending.others other routes same found
  · exact size.trans pending.bounded

/-- The three ends of a send: the index learns the client's tokens; or a client that was entered for
it goes again; or it stays with what it had and what was opened. -/
theorem sendInbound_cases {inserted : Bool} {client : SocketAddr}
    {endpoint : Endpoint} {target : Target}
    {payload : Bytes} {s s' : Ledgered ε ω} {state : ClientState ε} {result : Except IoError Bool}
    (found : s.clients.lookup client = some state)
    (sent : sendInbound (ledgeredOutbounds outbounds) inserted client endpoint target payload s =
      some (result, s')) :
    ∃ s₁, Sent client endpoint (holdings s) (holdings s₁) ∧ s₁.clients.size = s.clients.size ∧
      s'.world.2.delivered = s.world.2.delivered ∧
      ∃ routes, (holdings s₁).table client = some routes ∧
      ((∃ tokens, routes endpoint = some tokens) ∧ s'.clients.size = s₁.clients.size ∧
          Holdings.Learns client (holdings s₁) (holdings s') ∨
        inserted = true ∧ s' = { s₁ with clients := s₁.clients.erase client } ∨
        inserted = false ∧ s' = s₁ ∧
          Run.succeeds (onEgress client state (sendWith (ledgeredOutbounds outbounds).execution
            (ledgeredOutbounds outbounds).openDatagram endpoint target payload)) s =
              some (.ok false, s')) := by
  unfold sendInbound at sent
  rw [found] at sent
  rcases Run.bind_eq_some sent with ⟨accepted, s₁, sending, rest⟩ | ⟨e, sending, -⟩
  · obtain ⟨through, size, delivered, routes, there, routed⟩ := onEgress_sent found sending
    cases accepted with
    | true =>
        have state' : ∃ state', s₁.clients.lookup client = some state' := by
          obtain ⟨state', found', -⟩ := Option.map_eq_some_iff.mp there
          exact ⟨state', found'⟩
        obtain ⟨state', found'⟩ := state'
        have learns := rememberTokens_learns found'
        have remembered : rememberTokens client s₁ = { s₁ with
            tokenClients :=
              state'.routes.ownedTokens.foldl (fun tokens token => tokens.insert token client)
              s₁.tokenClients } := by
          rw [rememberTokens, found']
        have last : s' = rememberTokens client s₁ := by
          cases rest
          rfl
        rw [last]
        refine ⟨s₁, through, size, ?_, routes, there, .inl ⟨routed rfl, ?_, learns⟩⟩
        · rw [remembered]
          exact delivered
        · rw [remembered]
    | false =>
        cases inserted with
        | true =>
            have last : s' = { s₁ with clients := s₁.clients.erase client } := by
              cases rest
              rfl
            rw [last]
            exact ⟨s₁, through, size, delivered, routes, there, .inr (.inl ⟨rfl, rfl⟩)⟩
        | false =>
            have last : s' = s₁ := by
              cases rest
              rfl
            rw [last]
            exact ⟨s₁, through, size, delivered, routes, there, .inr (.inr ⟨rfl, rfl, sending⟩)⟩
  · obtain ⟨_, _, _, _, other⟩ := Run.of_succeeds_zoom sending
    cases other

/-- Soundness and the rest survive a send for a client that is there, and for one that was entered
for it. -/
theorem sendInbound_owned (inserted : Bool) {client : SocketAddr}
    {endpoint : Endpoint} {target : Target}
    {payload : Bytes} {s s' : Ledgered ε ω} {state : ClientState ε} {result : Except IoError Bool}
    (pending : Pending client s) (found : s.clients.lookup client = some state)
    (entered : inserted = true → ∀ token, (holdings s).index token ≠ some client)
    (settled : inserted = false → (holdings s).Settled)
    (sent : sendInbound (ledgeredOutbounds outbounds) inserted client endpoint target payload s =
      some (result, s')) :
    Owned s' ∧ s'.world.2.delivered = s.world.2.delivered := by
  obtain ⟨s₁, through, size, delivered, routes, there, ends⟩ := sendInbound_cases found sent
  have next := pending.of_sent through size
  refine ⟨?_, delivered⟩
  rcases ends with ⟨routed, same, learns⟩ | ⟨isInserted, rfl⟩ | ⟨notInserted, rfl, -⟩
  · exact Owned.of_learns next learns same there ⟨endpoint, routed⟩
  · have leaves : Holdings.Leaves client (holdings s₁)
        (holdings { s₁ with clients := s₁.clients.erase client }) := by
      refine next.sound.leaves_unindexed ?_ (table_erase _ _) rfl ⟨rfl, rfl⟩
      rw [through.index]
      exact entered isInserted
    exact Owned.of_leaves next leaves (Map.size_erase_le _ _)
  · refine ⟨next.sound, ?_, next.bounded⟩
    intro other routes' found'
    obtain ⟨routes₀, found₀, -, kept⟩ := through.table_of found'
    obtain ⟨endpoint', tokens, held⟩ := settled notInserted other routes₀ found₀
    exact ⟨endpoint', tokens, kept endpoint' tokens held⟩

/-- What becomes of a datagram: it is dropped; or dropped behind a cleanup that makes no room; or
sent by a client that is there; or by one that is entered for it. -/
inductive Handles (outbounds : Outbounds ε ω) (endpoint : Option Endpoint)
    (received : ReceivedTransparentDatagram)
    (s s' : Ledgered ε ω) (result : Except IoError Bool) : Prop
  | dropped (none : endpoint = none) (same : view s' = view s)
  | refused (now : Nat) (absent : s.clients.lookup received.client = none) {s₀ : Ledgered ε ω}
      (same : view s₀ = view s) (last : s' = cleanupIdleClients now s₀)
  | known {e : Endpoint} {state : ClientState ε} (selected : endpoint = some e)
      (found : s.clients.lookup received.client = some state)
      (sent : sendInbound (ledgeredOutbounds outbounds) false received.client e received.target
        received.payload s = some (result, s'))
  | entered (now : Nat) {e : Endpoint} (selected : endpoint = some e)
      (absent : s.clients.lookup received.client = none) {s₀ : Ledgered ε ω}
        (same : view s₀ = view s)
      (clients : s₀.clients = s.clients)
        (room : (cleanupIdleClients now s₀).clients.size < maxClients)
      {lastActivity : Nat} {world : ω × Ledger}
        (ledger : world.2 = (cleanupIdleClients now s₀).world.2)
      (sent : sendInbound (ledgeredOutbounds outbounds) true received.client e received.target
        received.payload { cleanupIdleClients now s₀ with
          clients := (cleanupIdleClients now s₀).clients.insert received.client { lastActivity }
          world := world } = some (result, s'))

theorem handleInbound_cases {received : ReceivedTransparentDatagram} {s s' : Ledgered ε ω}
    {result : Except IoError Bool}
    (handled : handleInbound env.ledgered runtime (ledgeredOutbounds outbounds) received s =
      some (result, s')) :
    Handles outbounds (outbounds.select runtime received.target (env.nextFlowId s.world.1).1)
      received
      { s with world := (env.ledgered.nextFlowId s.world).2 } s' result := by
  cases handleInbound_ends env.ledgered runtime (ledgeredOutbounds outbounds) handled with
  | unplanned selected => exact .dropped selected rfl
  | known selected found sent =>
      obtain ⟨state, found⟩ := Option.isSome_iff_exists.mp found
      exact .known selected found sent
  | full selected absent inserts =>
      obtain ⟨now, s₀, same, clients, ⟨-, rfl⟩ | ⟨accepted, -⟩⟩ := insertClient_entered env inserts
      · exact .refused now absent same rfl
      · cases accepted
  | entered selected absent inserts sent =>
      obtain ⟨now, s₀, same, clients, ⟨refused, -⟩ | ⟨-, room, lastActivity, world, rfl, ledger⟩⟩ :=
        insertClient_entered env inserts
      · cases refused
      · exact .entered now selected absent same clients room ledger sent

theorem Handles.owned {endpoint : Option Endpoint} {received : ReceivedTransparentDatagram}
    {s s' : Ledgered ε ω} {result : Except IoError Bool} (owned : Owned s)
    (handles : Handles outbounds endpoint received s s' result) :
    Owned s' ∧ s'.world.2.delivered = s.world.2.delivered := by
  cases handles with
  | dropped none same => exact ⟨owned.of_view same, congrArg (·.2.2) same⟩
  | @refused now absent s₀ same last =>
      rw [last]
      refine ⟨(owned.of_view same).cleanupIdleClients now, ?_⟩
      exact (cleanupIdleClients_delivered now s₀).trans (congrArg (·.2.2) same)
  | known selected found sent =>
      have pending : Pending received.client s :=
        ⟨owned.sound, fun other routes _ => owned.settled other routes, owned.bounded⟩
      exact sendInbound_owned false pending found (fun no => nomatch no)
        (fun _ => owned.settled) sent
  | @entered now e selected absent s₀ same clients room lastActivity world ledger sent =>
      have absent' : (cleanupIdleClients now s₀).clients.lookup received.client = none := by
        refine cleanupIdleClients_absent ?_
        rw [clients]
        exact absent
      obtain ⟨pending, unindexed⟩ :=
        ((owned.of_view same).cleanupIdleClients now).enter absent' room lastActivity ledger
      obtain ⟨kept, delivered⟩ := sendInbound_owned true pending (AList.lookup_insert _)
        (fun _ => unindexed) (fun no => nomatch no) sent
      refine ⟨kept, delivered.trans ?_⟩
      show world.2.delivered = _
      rw [ledger]
      exact (cleanupIdleClients_delivered now s₀).trans (congrArg (·.2.2) same)

theorem handleInbound_owned {received : ReceivedTransparentDatagram} {s s' : Ledgered ε ω}
    {result : Except IoError Bool} (owned : Owned s)
    (handled : handleInbound env.ledgered runtime (ledgeredOutbounds outbounds) received s =
      some (result, s')) :
    Owned s' ∧ s'.world.2.delivered = s.world.2.delivered := by
  have planned : Owned { s with world := (env.ledgered.nextFlowId s.world).2 } :=
    Owned.of_view (s := s) rfl owned
  obtain ⟨kept, delivered⟩ := (handleInbound_cases env runtime handled).owned planned
  exact ⟨kept, delivered⟩

/-! ### Receives and replies -/

/-- The receive step of a client's route leaves the view alone, and what it gives comes from the
route that owns the token. -/
theorem receiveOutbound_view {client : SocketAddr} {state : ClientState ε} {token : Nat}
    {s s' : Ledgered ε ω} {result : Except IoError (Option ReceivedDatagram)}
    (found : s.clients.lookup client = some state)
    (received : receiveOutbound (ledgeredOutbounds outbounds) client state token s =
      some (result, s')) :
    view s' = view s ∧ ∀ datagram, result = .ok (some datagram) →
      ∃ endpoint route out, state.routes.get endpoint = some route ∧ token ∈ route.tokens ∧
        outbounds.execution.receive maxPacket (route.execution, s.world.1) =
          some (.ok (some datagram), out) := by
  obtain ⟨out, got, rfl⟩ := Run.of_zoom received
  have size : ∀ routes, Map.size (s.clients.insert client { state with routes }) = s.clients.size :=
    fun routes => Map.size_insert_of_present (by rw [found]; rfl) _
  cases receiveReady_cases got with
  | noOwner unowned =>
      exact ⟨view_of_parts (table_insert_same found rfl) (size _) rfl rfl rfl, nofun⟩
  | @received endpoint route _ object _ owner taken =>
      obtain ⟨held, owns⟩ := Map.lookup_of_findValue owner
      obtain ⟨inner, ledger⟩ := receive_recorded taken
      refine ⟨view_of_parts (table_insert_same found (tokensAt_put_same held object))
        (size _) rfl rfl
        ledger, ?_⟩
      rintro datagram rfl
      exact ⟨endpoint, route, _, held, by simpa using owns, inner⟩

theorem openReplySocket_view (source : SocketAddr) :
    Run.Keeps view (openReplySocket (ε := ε) env.ledgered source) := by
  refine Run.Keeps.bind (instant_view env) fun now =>
    Run.Keeps.bind (.modify fun s => rfl) fun _ => ?_
  intro s result s' h
  dsimp only at h
  split at h
  · rename_i answer
    cases h
    exact view_of_parts rfl rfl rfl rfl (congrArg (·.2.2) answer.symm)
  · rename_i answer
    cases h
    exact view_of_parts rfl rfl rfl rfl (congrArg (·.2.2) answer.symm)

/-- A reply goes to the given client, from the given source, once or not at all. -/
theorem sendReply_delivered {source : Target} {client : SocketAddr} {payload : Bytes}
    {s s' : Ledgered ε ω}
    {result : Except IoError Unit}
    (sent : sendReply env.ledgered source client payload s = some (result, s')) :
    (holdings s' = holdings s ∧ s'.clients.size = s.clients.size) ∧
      (s'.world.2.delivered = s.world.2.delivered ∨
        ∃ address, targetSocketAddr source = .ok address ∧
          s'.world.2.delivered = s.world.2.delivered ++ [⟨address, payload, client⟩]) := by
  unfold sendReply at sent
  match from' : targetSocketAddr source with
  | .error e =>
      rw [from'] at sent
      cases sent
      exact ⟨⟨rfl, rfl⟩, .inl rfl⟩
  | .ok address =>
      rw [from'] at sent
      dsimp only at sent
      split at sent
      · cases sent
        exact ⟨⟨rfl, rfl⟩, .inl rfl⟩
      have opening : Run.Keeps view (Run.when (s.replySockets.lookup address).isNone
          (openReplySocket (ε := ε) env.ledgered address)) :=
            (openReplySocket_view env address).when
      rcases Run.bind_eq_some sent with ⟨_, s₁, opened, last⟩ | ⟨e, opened, -⟩
      · obtain ⟨held, size, delivered⟩ :=
          Prod.mk.inj (opening s _ s₁ opened) |>.imp_right Prod.mk.inj
        obtain ⟨world, sockets, rfl, ledger⟩ : ∃ world sockets,
            s' = { s₁ with world := world, replySockets := sockets } ∧
              world.2 = { s₁.world.2 with
                delivered := s₁.world.2.delivered ++ [⟨address, payload, client⟩] } := by
          split at last
          · rename_i answer
            cases last
            exact ⟨_, _, rfl, congrArg (·.2.2) answer.symm⟩
          · rename_i answer
            have ledger := congrArg (·.2.2) answer.symm
            split at last
            · cases last
              exact ⟨_, _, rfl, ledger⟩
            · cases last
              exact ⟨_, _, rfl, ledger⟩
        refine ⟨⟨?_, size⟩, .inr ⟨address, rfl, ?_⟩⟩
        · rw [← held]
          unfold holdings
          rw [ledger]
        · rw [ledger, ← delivered]
      · obtain ⟨held, size, delivered⟩ :=
          Prod.mk.inj (opening s _ s' opened) |>.imp_right Prod.mk.inj
        exact ⟨⟨held, size⟩, .inl delivered⟩

/-! ### The loop -/

/-- The tokens at hand lead to the clients they stand with. -/
def ReadyKnown (s : Ledgered ε ω) : Point → Prop
  | .outbound ready _ => ∀ entry ∈ ready, (holdings s).index entry.1 = some entry.2
  | _ => True

/-- The reply carries a datagram that was received on a route of its client, from the source the
route reported. -/
def Delivers (outbounds : Outbounds ε ω) (s : Ledgered ε ω) (d : Delivery) : Prop :=
  ∃ state endpoint route token datagram out, s.clients.lookup d.client = some state ∧
    state.routes.get endpoint = some route ∧ token ∈ route.tokens ∧
    s.tokenClients.lookup token = some d.client ∧
    outbounds.execution.receive maxPacket (route.execution, s.world.1) =
      some (.ok (some datagram), out) ∧
    targetSocketAddr datagram.source = .ok d.source ∧ datagram.payload = d.payload

/-- Nothing is delivered, or one datagram of one of the routes. -/
def DeliversAtMost (outbounds : Outbounds ε ω) (s s' : Ledgered ε ω) : Prop :=
  s'.world.2.delivered = s.world.2.delivered ∨
    ∃ d, Delivers outbounds s d ∧ s'.world.2.delivered = s.world.2.delivered ++ [d]

theorem readyKnown_outboundReady (s : Ledgered ε ω) (events : List PollEvent) (burst : Nat) :
    ReadyKnown s (.outbound (outboundReady events s) burst) := by
  intro entry member
  obtain ⟨event, -, found⟩ := List.mem_filterMap.mp member
  obtain ⟨client, indexed, rfl⟩ := Option.map_eq_some_iff.mp found
  exact indexed

/-- A poll that hands on no events keeps what is owned as it is; one that does drops the idle
clients first. -/
theorem pollEvents_cases {s s' : Ledgered ε ω} {result : Except IoError Point}
    (polled : pollEvents env.ledgered s = some (result, s')) :
    (view s' = view s ∧ ∀ point, result = .ok point → point = .top) ∨
      ∃ s₁ now sockets burst events, view s₁ = view s ∧
        s' = { cleanupIdleClients now s₁ with replySockets := sockets } ∧
        result = .ok (.inbound burst events) := by
  rcases Run.bind_eq_some polled with ⟨now, s₁, clock, rest⟩ | ⟨e, clock, -⟩
  · cases clock
    dsimp only at rest
    split at rest
    · rename_i answer
      have ledger := congrArg (·.2.2) answer.symm
      split at rest
      · cases rest
        refine .inl ⟨view_of_parts rfl rfl rfl rfl ledger, ?_⟩
        rintro point ⟨⟩
        rfl
      · cases rest
        exact .inl ⟨view_of_parts rfl rfl rfl rfl ledger, nofun⟩
    · rename_i events world answer
      have ledger := congrArg (·.2.2) answer.symm
      cases rest
      have same : view { s with world := (env.ledgered.now world).2 } = view s :=
        view_of_parts rfl rfl rfl rfl ledger
      exact .inr ⟨_, _, _, _, _, same, rfl, rfl⟩
  · cases clock

theorem pollEvents_owned {s s' : Ledgered ε ω} {result : Except IoError Point} (owned : Owned s)
    (polled : pollEvents env.ledgered s = some (result, s')) :
    Owned s' ∧ s'.world.2.delivered = s.world.2.delivered ∧
      ∀ point, result = .ok point → ReadyKnown s' point := by
  have delivered : ∀ {s₁ : Ledgered ε ω}, view s₁ = view s →
      s₁.world.2.delivered = s.world.2.delivered :=
    fun same => (Prod.mk.inj (Prod.mk.inj same).2).2
  rcases pollEvents_cases env polled with ⟨same, top⟩ | ⟨s₁, now, sockets, burst,
    events, same, rfl, rfl⟩
  · refine ⟨owned.of_view same, delivered same, fun point is => ?_⟩
    rw [top point is]
    exact trivial
  · have cleaned := (owned.of_view same).cleanupIdleClients now
    refine ⟨⟨cleaned.sound, cleaned.settled, cleaned.bounded⟩,
      (cleanupIdleClients_delivered now s₁).trans (delivered same), ?_⟩
    rintro point ⟨⟩
    exact trivial

theorem recvOriginalDatagram_ledger {s s' : ω × Ledger}
    {result : Except IoError (Option ReceivedTransparentDatagram)}
    (read : recvOriginalDatagram env.ledgered s = (result, s')) : s'.2 = s.2 := by
  cases recvOriginalDatagram_cases env.ledgered read with
  | again answer | interrupted answer | failed answer | invalid answer checked
  | received answer checked =>
      exact (recvmsg_recorded answer).2

theorem receiveInbound_owned {burst : Nat} {events : List PollEvent} {s s' : Ledgered ε ω}
    {result : Except IoError Point} (owned : Owned s)
    (received : receiveInbound env.ledgered runtime (ledgeredOutbounds outbounds) burst events s =
      some (result, s')) :
    Owned s' ∧ s'.world.2.delivered = s.world.2.delivered ∧
      ∀ point, result = .ok point → ReadyKnown s' point := by
  cases receiveInbound_cases env.ledgered runtime (ledgeredOutbounds outbounds) received with
  | failed answer =>
      have ledger := recvOriginalDatagram_ledger env answer
      exact ⟨Owned.of_view (s := s) (view_of_parts rfl rfl rfl rfl ledger) owned,
        congrArg Ledger.delivered ledger, nofun⟩
  | @drained world answer =>
      have ledger := recvOriginalDatagram_ledger env answer
      refine ⟨Owned.of_view (s := s) (view_of_parts rfl rfl rfl rfl ledger) owned,
        congrArg Ledger.delivered ledger, ?_⟩
      rintro point ⟨⟩
      exact readyKnown_outboundReady (s := { s with world }) events _
  | @arrived datagram world _ _ _ answer handled touched =>
      have ledger := recvOriginalDatagram_ledger env answer
      have next : Owned { s with world } :=
        Owned.of_view (s := s) (view_of_parts rfl rfl rfl rfl ledger) owned
      obtain ⟨kept, delivered⟩ := handleInbound_owned env runtime next handled
      have same := (touch_view env datagram.client).when _ _ _ touched
      refine ⟨kept.of_view same, ?_, ?_⟩
      · exact (congrArg (·.2.2) same).trans (delivered.trans (congrArg Ledger.delivered ledger))
      · rintro point ⟨⟩
        exact trivial

theorem answer_owned {token : Nat} {client : SocketAddr}
    {ready : List (Nat × SocketAddr)} {burst : Nat}
    {received : Option ReceivedDatagram} {s s' : Ledgered ε ω}
    {result : Except IoError Point} (owned : Owned s)
    (known : ReadyKnown s (.outbound ((token, client) :: ready) burst))
    (answered : answer env.ledgered token client ready burst received s = some (result, s')) :
    holdings s' = holdings s ∧ Owned s' ∧ (∀ point, result = .ok point → ReadyKnown s' point) ∧
      (s'.world.2.delivered = s.world.2.delivered ∨
        ∃ datagram address, received = some datagram ∧
          targetSocketAddr datagram.source = .ok address ∧
          s'.world.2.delivered = s.world.2.delivered ++ [⟨address, datagram.payload, client⟩]) := by
  cases received with
  | none =>
      cases answered
      refine ⟨rfl, owned, ?_, .inl rfl⟩
      rintro point ⟨⟩
      exact fun entry member => known entry (List.mem_cons_of_mem _ member)
  | some datagram =>
      rcases Run.bind_eq_some answered with ⟨sent, s₁, sending, rest⟩ | ⟨e, sending, failed⟩
      · obtain ⟨result', replied, -⟩ := Run.of_succeeds sending
        obtain ⟨⟨held, size⟩, delivered⟩ := sendReply_delivered env replied
        have after : Run.Keeps view (do
            Run.when sent (touch (ε := ε) env.ledgered client)
            pure (Point.outbound ((token, client) :: ready) burst)) :=
          (touch_view env client).when.bind fun _ => .pure _
        obtain ⟨held', size', delivered'⟩ :=
          Prod.mk.inj (after s₁ result s' rest) |>.imp_right Prod.mk.inj
        have index : (holdings s').index = (holdings s).index := by rw [held', held]
        refine ⟨held'.trans held, ⟨?_, ?_, ?_⟩, ?_, ?_⟩
        · rw [held', held]
          exact owned.sound
        · rw [held', held]
          exact owned.settled
        · rw [size', size]
          exact owned.bounded
        · rintro point rfl
          rw [Run.bind_pure_eq_ok rest]
          intro entry member
          rw [index]
          exact known entry member
        · rw [delivered']
          rcases delivered with same | ⟨address, source, one⟩
          · exact .inl same
          · exact .inr ⟨datagram, address, rfl, source, one⟩
      · obtain ⟨_, _, other⟩ := Run.of_succeeds sending
        cases other

/-- One step of the listener: the tokens stay in order, and one reply at most goes out, to the
client whose route received it. -/
theorem step_owned {point point' : Point} {s s' : Ledgered ε ω} (owned : Owned s)
    (known : ReadyKnown s point)
    (stepped : step env.ledgered runtime (ledgeredOutbounds outbounds) point s =
      some (point', s')) :
    Owned s' ∧ ReadyKnown s' point' ∧ DeliversAtMost outbounds s s' := by
  have body : ∀ {result}, proceed env.ledgered runtime (ledgeredOutbounds outbounds) point s =
      some (result, s') →
        Owned s' ∧ (∀ next, result = .ok next → ReadyKnown s' next) ∧
            DeliversAtMost outbounds s s' := by
    intro result proceeded
    match point with
    | .top =>
        obtain ⟨kept, delivered, known'⟩ := pollEvents_owned env owned proceeded
        exact ⟨kept, known', .inl delivered⟩
    | .inbound 0 events =>
        cases proceeded
        refine ⟨owned, ?_, .inl rfl⟩
        rintro next ⟨⟩
        exact readyKnown_outboundReady s events _
    | .inbound (burst + 1) events =>
        obtain ⟨kept, delivered, known'⟩ := receiveInbound_owned env runtime owned proceeded
        exact ⟨kept, known', .inl delivered⟩
    | .outbound [] _ =>
        cases proceeded
        refine ⟨owned, ?_, .inl rfl⟩
        rintro next ⟨⟩
        exact trivial
    | .outbound (_ :: ready) 0 =>
        cases proceeded
        refine ⟨owned, ?_, .inl rfl⟩
        rintro next ⟨⟩
        exact fun entry member => known entry (List.mem_cons_of_mem _ member)
    | .outbound ((token, client) :: ready) (burst + 1) =>
        -- the index is never stale, so the client of a ready token is there
        have indexed : (holdings s).index token = some client := known _ List.mem_cons_self
        obtain ⟨_, routes, _, there, -⟩ := owned.sound.indexed token client indexed
        obtain ⟨state, found, -⟩ := Option.map_eq_some_iff.mp there
        rw [proceed_receive _ _ _ found] at proceeded
        rcases Run.bind_eq_some proceeded with ⟨received, s₁, receives, rest⟩ | ⟨e,
          receives, failed⟩
        · obtain ⟨same, owner⟩ := receiveOutbound_view found receives
          have known₁ : ReadyKnown s₁ (.outbound ((token, client) :: ready) burst) := by
            intro entry member
            rw [(Prod.mk.inj same).1]
            exact known entry member
          obtain ⟨-, kept, known', delivered⟩ := answer_owned env (owned.of_view same) known₁ rest
          refine ⟨kept, known', ?_⟩
          have before : s₁.world.2.delivered = s.world.2.delivered := congrArg (·.2.2) same
          rw [before] at delivered
          rcases delivered with none | ⟨datagram, address, rfl, source, one⟩
          · exact .inl none
          · obtain ⟨endpoint, route, out, held, member, taken⟩ := owner datagram rfl
            exact .inr ⟨⟨address, datagram.payload, client⟩,
              ⟨state, endpoint, route, token, datagram, out, found,
              held, member, indexed, taken, source, rfl⟩, one⟩
        · obtain ⟨same, -⟩ := receiveOutbound_view found receives
          refine ⟨owned.of_view same, ?_, .inl (congrArg (·.2.2) same)⟩
          rw [failed]
          nofun
    | .returned result' =>
        cases proceeded
        refine ⟨owned, ?_, .inl rfl⟩
        rintro next ⟨⟩
        exact trivial
  rcases step_cases env.ledgered runtime (ledgeredOutbounds outbounds)
    stepped with proceeded | ⟨e, rfl, proceeded⟩
  · obtain ⟨kept, known', delivers⟩ := body proceeded
    exact ⟨kept, known' _ rfl, delivers⟩
  · obtain ⟨kept, -, delivers⟩ := body proceeded
    exact ⟨kept, trivial, delivers⟩

theorem owned_fresh (world : ω) : Owned ({ world := (world, {}) } : Ledgered ε ω) := by
  have nothing : ∀ client endpoint token,
      ¬(holdings ({ world := (world, {}) } : Ledgered ε ω)).Owns client endpoint token := by
    rintro client endpoint token ⟨routes, tokens, found, -⟩
    cases found
  refine ⟨⟨le_refl _, List.nodup_nil, nofun, ?_, ?_, nofun⟩, nofun, Nat.zero_le _⟩
  · intro client endpoint token owns
    exact absurd owns (nothing client endpoint token)
  · intro client endpoint client' endpoint' token owns
    exact absurd owns (nothing client endpoint token)

theorem Reaches.owned {Meets : Point → Ledgered ε ω → Prop} {world : ω}
    {point : Point} {s : Ledgered ε ω}
    (reached : Reaches env.ledgered runtime (ledgeredOutbounds outbounds) Meets
      { world := (world, {}) } point s) :
    Owned s ∧ ReadyKnown s point := by
  refine reached.invariant _ _ _ (I := fun point s => Owned s ∧ ReadyKnown s point) ?_ ?_
  · exact ⟨owned_fresh world, trivial⟩
  · intro point s point' s' ⟨owned, ready⟩ _ stepped
    obtain ⟨kept, known, -⟩ := step_owned env runtime owned ready stepped
    exact ⟨kept, known⟩

/-- The token belongs to the client's route to the endpoint. -/
def OwnsToken (s : Listener ε ω) (client : SocketAddr) (endpoint : Endpoint) (token : Nat) : Prop :=
  ∃ state route, s.clients.lookup client = some state ∧ state.routes.get endpoint = some route ∧
    token ∈ route.tokens

theorem owns_iff_ownsToken {s : Ledgered ε ω} {client : SocketAddr}
    {endpoint : Endpoint} {token : Nat} :
    (holdings s).Owns client endpoint token ↔ OwnsToken s client endpoint token := by
  constructor
  · rintro ⟨routes, tokens, there, held, member⟩
    obtain ⟨state, found, rfl⟩ := Option.map_eq_some_iff.mp there
    obtain ⟨route, found', rfl⟩ := Option.map_eq_some_iff.mp held
    exact ⟨state, route, found, found', member⟩
  · rintro ⟨state, route, found, found', member⟩
    refine ⟨_, route.tokens, table_of_lookup found, ?_, member⟩
    rw [tokensAt, found']
    rfl

/-- In every run: tokens are handed out once and never the listener's own; a token belongs to one
route of one client; an entry of `token_clients` leads to the client whose route owns the token;
there are at most 512 clients, each with a route; and a reply goes out only with a datagram that a
route of its own client has just received, from the source the route reports. -/
theorem tokens_lead_to_their_client (env : Env ω) (runtime : Runtime)
    (outbounds : Outbounds ε ω) {world : ω}
    {point : Point} {s : Ledgered ε ω}
    (reached : Reaches env.ledgered runtime (ledgeredOutbounds outbounds) (fun _ _ => True)
      { world := (world, {}) } point s) :
    s.world.2.granted.Nodup ∧ inboundToken ∉ s.world.2.granted ∧
    (∀ client endpoint token, OwnsToken s client endpoint token → token ∈ s.world.2.granted) ∧
    (∀ client endpoint client' endpoint' token, OwnsToken s client endpoint token →
      OwnsToken s client' endpoint' token → client = client' ∧ endpoint = endpoint') ∧
    (∀ token client, s.tokenClients.lookup token = some client →
      ∃ endpoint, OwnsToken s client endpoint token) ∧
    s.clients.size ≤ maxClients ∧
    (∀ client state, s.clients.lookup client = some state →
      ∃ endpoint route, state.routes.get endpoint = some route) ∧
    ∀ point' s', step env.ledgered runtime (ledgeredOutbounds outbounds) point s =
      some (point', s') →
      DeliversAtMost outbounds s s' := by
  obtain ⟨owned, known⟩ := reached.owned env runtime
  refine ⟨owned.sound.distinct, ?_, ?_, ?_, ?_, owned.bounded, ?_, ?_⟩
  · intro own
    exact absurd (owned.sound.issued _ own).1 (by decide)
  · intro client endpoint token owns
    exact owned.sound.owned client endpoint token (owns_iff_ownsToken.mpr owns)
  · intro client endpoint client' endpoint' token owns owns'
    exact owned.sound.unique _ _ _ _ token (owns_iff_ownsToken.mpr owns)
      (owns_iff_ownsToken.mpr owns')
  · intro token client indexed
    obtain ⟨endpoint, owns⟩ := owned.sound.indexed token client indexed
    exact ⟨endpoint, owns_iff_ownsToken.mp owns⟩
  · intro client state found
    obtain ⟨endpoint, tokens, held⟩ := owned.settled client _ (table_of_lookup found)
    obtain ⟨route, found', -⟩ := Option.map_eq_some_iff.mp held
    exact ⟨endpoint, route, found'⟩
  · intro point' s' stepped
    exact (step_owned env runtime owned known stepped).2.2

/-- The proxy endpoint's outbounds; a receive always gives a datagram from 5.6.7.8:80. -/
abbrev answering : Outbounds (Opened Unit Unit) (List Message) :=
  (OutboundRegistry.single proxyOne).outbounds
    (.scripted (.ok (some ⟨⟨.ip (.v4 ⟨5, 6, 7, 8⟩), 80, httpPort_ne_zero⟩, [9]⟩)))

/-- A client sends a datagram through the proxy endpoint, and the route answers from another
address: the reply goes to the client, from that address. -/
theorem tokens_lead_to_their_client_example :
    ∃ s, Reaches Env.messages.ledgered proxied (ledgeredOutbounds answering) (fun _ _ => True)
        { world := ([messageFrom 1 true], {}) } (.outbound [(1, ⟨.v4 ⟨10, 0, 0, 1⟩, 5000⟩)] 31) s ∧
      s.world.2 = ⟨[1], [⟨⟨.v4 ⟨5, 6, 7, 8⟩, 80⟩, [9], ⟨.v4 ⟨10, 0, 0, 1⟩, 5000⟩⟩]⟩ ∧
      ∀ token client, s.tokenClients.lookup token = some client →
        ∃ endpoint, OwnsToken s client endpoint token := by
  have run :
    ∃ s, Reaches Env.messages.ledgered proxied (ledgeredOutbounds answering) (fun _ _ => True)
        { world := ([messageFrom 1 true], {}) } (.outbound [(1, ⟨.v4 ⟨10, 0, 0, 1⟩, 5000⟩)] 31) s ∧
      s.world.2 = ⟨[1], [⟨⟨.v4 ⟨5, 6, 7, 8⟩, 80⟩, [9], ⟨.v4 ⟨10, 0, 0, 1⟩, 5000⟩⟩]⟩ :=
    ⟨_,
      .step (.step (.step (.step (.step (.step (.step .start trivial rfl) trivial rfl) trivial rfl)
      trivial rfl) trivial rfl) trivial rfl) trivial rfl, rfl⟩
  obtain ⟨s, reached, ledger⟩ := run
  obtain ⟨-, -, -, -, indexed, -⟩ :=
    tokens_lead_to_their_client Env.messages proxied answering reached
  exact ⟨s, reached, ledger, indexed⟩

end Commeatus.Daemon.TransparentUdp
