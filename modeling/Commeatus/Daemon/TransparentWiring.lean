import Commeatus.Daemon.TransparentOwnership

/-!
Whether every route can be reached from its readiness tokens.

A readiness event is served only if its token leads to a client through
`token_clients`. The map is filled after a send that went through, while the
route is opened and registered before it; so it lags behind where a client
that is there gets a new route and the first datagram on it fails.
-/

namespace Commeatus.Daemon.TransparentUdp

open Commeatus.Lib Commeatus.Core DatagramRouteSet

variable {ε ω : Type}

/-- Every token of a client's route leads to the client. -/
def Wired (s : Listener ε ω) : Prop :=
  ∀ client endpoint token, OwnsToken s client endpoint token →
    s.tokenClients.lookup token = some client

/-- The datagram selects a new route of a client that is there; the route is opened, and the
datagram fails on it. -/
def FailsOnNewRoute (outbounds : Outbounds ε ω) (client : SocketAddr)
    (endpoint : Endpoint) (target : Target)
    (payload : Bytes) (s : Listener ε ω) : Prop :=
  ∃ state opened e out, s.clients.lookup client = some state ∧ state.routes.get endpoint = none ∧
    openRoute outbounds.execution outbounds.openDatagram endpoint
      ⟨state.routes, s.tokens, s.world⟩ =
      some (.ok (), opened) ∧
    sendRoute outbounds.execution endpoint target payload opened = some (.error e, out)

/-- The step receives such a datagram. -/
def Strands (env : Env ω) (runtime : Runtime) (outbounds : Outbounds ε ω) (point : Point)
    (s : Listener ε ω) : Prop :=
  ∃ burst events received world endpoint, point = .inbound (burst + 1) events ∧
    recvOriginalDatagram env s.world = (.ok (some received), world) ∧
    outbounds.select runtime received.target (env.nextFlowId world).1 = some endpoint ∧
    FailsOnNewRoute outbounds received.client endpoint received.target received.payload
      { s with world := (env.nextFlowId world).2 }

theorem wired_iff {s : Ledgered ε ω} : (holdings s).Wired ↔ Wired s := by
  constructor
  · intro wired client endpoint token owns
    exact wired client endpoint token (owns_iff_ownsToken.mpr owns)
  · intro wired client endpoint token owns
    exact wired client endpoint token (owns_iff_ownsToken.mp owns)

theorem Sent.wiredBut {client : SocketAddr} {endpoint : Endpoint}
    {h h' : Holdings SocketAddr Endpoint}
    (sent : Sent client endpoint h h') (wired : h.WiredBut client) : h'.WiredBut client := by
  rintro other endpoint' token distinct ⟨routes', tokens, found', held, member⟩
  obtain ⟨routes, found, same, -⟩ := sent.table_of found'
  rw [same distinct] at held
  rw [sent.index]
  exact wired other endpoint' token distinct ⟨routes, tokens, found, held, member⟩

variable {outbounds : Outbounds ε ω} (env : Env ω) (runtime : Runtime)

/-- A send that fails opens a route exactly where it fails on the new route. -/
theorem onEgress_failed {client : SocketAddr} {state : ClientState ε}
    {endpoint : Endpoint} {target : Target}
    {payload : Bytes} {s s' : Ledgered ε ω} (found : s.clients.lookup client = some state)
    (failed : Run.succeeds (onEgress client state (sendWith (ledgeredOutbounds outbounds).execution
      (ledgeredOutbounds outbounds).openDatagram endpoint target payload)) s =
        some (.ok false, s')) :
    (¬FailsOnNewRoute (ledgeredOutbounds outbounds) client endpoint target payload s →
      (holdings s').table = (holdings s).table ∧ (holdings s').index = (holdings s).index) ∧
    (FailsOnNewRoute (ledgeredOutbounds outbounds) client endpoint target payload s →
      ∃ granted, granted ≠ [] ∧
        Holdings.Opens client endpoint granted (holdings s) (holdings s')) := by
  obtain ⟨result', out, sent, rfl, isFalse⟩ := Run.of_succeeds_zoom failed
  obtain ⟨e, rfl⟩ : ∃ e, result' = .error e := by
    cases result' with
    | ok a => cases isFalse
    | error e => exact ⟨e, rfl⟩
  constructor
  · intro elsewhere
    rcases sendWith_tokens sent with ⟨-, -, same⟩ | ⟨-, -, -, -, -, same⟩ |
      ⟨opened, -, vacant, opens, fails, -⟩
    · exact ⟨table_insert_same found same, rfl⟩
    · exact ⟨table_insert_same found same, rfl⟩
    · exact absurd ⟨state, opened, e, out, found, vacant, opens, fails⟩ elsewhere
  · rintro ⟨state', opened, e', out', found', vacant, opens, fails⟩
    obtain rfl : state = state' := Option.some.inj (found.symm.trans found')
    rcases sendWith_tokens sent with ⟨known, -⟩ | ⟨e₁, -, -, unopened, -⟩ |
      ⟨opened', granted, -, -, -, spends, nonempty, updated⟩
    · rw [vacant] at known
      cases known
    · rw [opens] at unopened
      cases unopened
    · refine ⟨granted, nonempty, ⟨spends.run, ?_, spends.next⟩, ?_, rfl⟩
      · exact congrArg Ledger.granted spends.ledger
      · refine ⟨tokensAt state.routes, table_of_lookup found, ?_, ?_⟩
        · rw [tokensAt, vacant]
          rfl
        · rw [← updated]
          exact table_insert _ _ _

/-- A send keeps the wiring, unless it fails on a new route of a client that is there. -/
theorem sendInbound_wired (inserted : Bool) {client : SocketAddr}
    {endpoint : Endpoint} {target : Target}
    {payload : Bytes} {s s' : Ledgered ε ω} {state : ClientState ε} {result : Except IoError Bool}
    (pending : Pending client s) (wired : (holdings s).Wired)
    (found : s.clients.lookup client = some state)
    (entered : inserted = true → ∀ token, (holdings s).index token ≠ some client)
    (elsewhere : inserted = false →
      ¬FailsOnNewRoute (ledgeredOutbounds outbounds) client endpoint target payload s)
    (sent : sendInbound (ledgeredOutbounds outbounds) inserted client endpoint target payload s =
      some (result, s')) : (holdings s').Wired := by
  obtain ⟨s₁, through, size, -, routes, there, ends⟩ := sendInbound_cases found sent
  have sound := through.sound pending.sound
  have others := through.wiredBut (wired.but client)
  rcases ends with ⟨-, -, learns⟩ | ⟨isInserted, rfl⟩ | ⟨notInserted, rfl, failed⟩
  · exact others.learn sound learns
  · have leaves : Holdings.Leaves client (holdings s₁)
        (holdings { s₁ with clients := s₁.clients.erase client }) := by
      refine sound.leaves_unindexed ?_ (table_erase _ _) rfl ⟨rfl, rfl⟩
      rw [through.index]
      exact entered isInserted
    exact others.leave sound leaves
  · obtain ⟨table, index⟩ := (onEgress_failed found failed).1 (elsewhere notInserted)
    rintro other endpoint' token ⟨routes', tokens, found', held, member⟩
    rw [table] at found'
    rw [index]
    exact wired other endpoint' token ⟨routes', tokens, found', held, member⟩

/-- Where it does fail on a new route, the wiring is broken. -/
theorem sendInbound_not_wired {client : SocketAddr} {endpoint : Endpoint} {target : Target}
    {payload : Bytes} {s s' : Ledgered ε ω} {result : Except IoError Bool}
    (sound : (holdings s).Sound outboundFirstToken)
    (fails : FailsOnNewRoute (ledgeredOutbounds outbounds) client endpoint target payload s)
    (sent : sendInbound (ledgeredOutbounds outbounds) false client endpoint target payload s =
      some (result, s')) : ¬(holdings s').Wired := by
  obtain ⟨state, opened, e, out, found, vacant, opens, failing⟩ := fails
  have sending :
    sendWith (ledgeredOutbounds outbounds).execution (ledgeredOutbounds outbounds).openDatagram
      endpoint target payload ⟨state.routes, s.tokens, s.world⟩ = some (.error e, out) := by
    refine (Run.bind_of_ok (a := ()) ?_).trans failing
    rw [vacant]
    exact opens
  have failed :
    Run.succeeds (onEgress client state (sendWith (ledgeredOutbounds outbounds).execution
      (ledgeredOutbounds outbounds).openDatagram endpoint target payload)) s =
          some (.ok false, _) :=
    Run.succeeds_zoom_of_error sending
  unfold sendInbound at sent
  rw [found] at sent
  dsimp only at sent
  rw [Run.bind_of_ok failed] at sent
  cases sent
  obtain ⟨granted, nonempty, opens'⟩ :=
    (onEgress_failed found failed).2 ⟨state, opened, e, out, found, vacant, opens, failing⟩
  exact opens'.not_wired sound nonempty

theorem Wired.cleanupIdleClients {s : Ledgered ε ω} (owned : Owned s)
    (wired : (holdings s).Wired) (now : Nat) :
    (holdings (cleanupIdleClients now s)).Wired := by
  refine (cleanupIdleClients_induction (P := fun s => Owned s ∧ (holdings s).Wired) ?_
    now ⟨owned, wired⟩).2
  intro s client state found kept
  exact ⟨kept.1.dropClient found, (kept.2.but client).leave kept.1.sound (dropClient_leaves found)⟩

theorem wired_of_view {s s' : Ledgered ε ω} (same : view s' = view s) (wired : (holdings s).Wired) :
    (holdings s').Wired := by
  rw [(Prod.mk.inj same).1]
  exact wired

theorem Handles.wired {endpoint : Option Endpoint} {received : ReceivedTransparentDatagram}
    {s s' : Ledgered ε ω} {result : Except IoError Bool} (owned : Owned s)
    (wired : (holdings s).Wired)
    (elsewhere : ∀ e, endpoint = some e →
      ¬FailsOnNewRoute (ledgeredOutbounds outbounds) received.client e received.target
        received.payload s)
    (handles : Handles outbounds endpoint received s s' result) : (holdings s').Wired := by
  cases handles with
  | dropped none same => exact wired_of_view same wired
  | refused now absent same last =>
      rw [last]
      exact Wired.cleanupIdleClients (owned.of_view same) (wired_of_view same wired) now
  | known selected found sent =>
      have pending : Pending received.client s :=
        ⟨owned.sound, fun other routes _ => owned.settled other routes, owned.bounded⟩
      exact sendInbound_wired false pending wired found (fun no => nomatch no)
        (fun _ => elsewhere _ selected) sent
  | @entered now e selected absent s₀ same clients room lastActivity world ledger sent =>
      have absent' : (cleanupIdleClients now s₀).clients.lookup received.client = none := by
        refine cleanupIdleClients_absent ?_
        rw [clients]
        exact absent
      have cleaned := (owned.of_view same).cleanupIdleClients now
      obtain ⟨pending, unindexed⟩ := cleaned.enter absent' room lastActivity ledger
      have before := Wired.cleanupIdleClients (owned.of_view same) (wired_of_view same wired) now
      have wired' := before.enter (enters_insert absent' lastActivity ledger)
      exact sendInbound_wired true pending wired' (AList.lookup_insert _) (fun _ => unindexed)
        (fun no => nomatch no) sent

theorem pollEvents_wired {s s' : Ledgered ε ω} {result : Except IoError Point} (owned : Owned s)
    (wired : (holdings s).Wired) (polled : pollEvents env.ledgered s = some (result, s')) :
    (holdings s').Wired := by
  rcases pollEvents_cases env polled with ⟨same, -⟩ | ⟨s₁, now, sockets, burst,
    events, same, rfl, -⟩
  · exact wired_of_view same wired
  · exact Wired.cleanupIdleClients (owned.of_view same) (wired_of_view same wired) now

/-- One read keeps the wiring, unless it strands a route. -/
theorem receiveInbound_wired {burst : Nat} {events : List PollEvent} {s s' : Ledgered ε ω}
    {result : Except IoError Point} (owned : Owned s) (wired : (holdings s).Wired)
    (elsewhere : ¬Strands env.ledgered runtime (ledgeredOutbounds outbounds)
      (.inbound (burst + 1) events) s)
    (received : receiveInbound env.ledgered runtime (ledgeredOutbounds outbounds) burst events s =
      some (result, s')) : (holdings s').Wired := by
  cases receiveInbound_cases env.ledgered runtime (ledgeredOutbounds outbounds) received with
  | failed answer =>
      have ledger := recvOriginalDatagram_ledger env answer
      exact wired_of_view (s := s) (view_of_parts rfl rfl rfl rfl ledger) wired
  | drained answer =>
      have ledger := recvOriginalDatagram_ledger env answer
      exact wired_of_view (s := s) (view_of_parts rfl rfl rfl rfl ledger) wired
  | @arrived datagram world _ _ _ answer handled touched =>
      have ledger := recvOriginalDatagram_ledger env answer
      have same : view { s with world := (env.ledgered.nextFlowId world).2 } = view s :=
        view_of_parts rfl rfl rfl rfl ledger
      have handles := handleInbound_cases env runtime handled
      refine wired_of_view ((touch_view env datagram.client).when _ _ _ touched) ?_
      refine handles.wired (owned.of_view same) (wired_of_view same wired) ?_
      intro endpoint selected fails
      exact elsewhere ⟨burst, events, datagram, world, endpoint, rfl, answer, selected, fails⟩

/-- A read that strands a route breaks the wiring. -/
theorem receiveInbound_not_wired {burst : Nat} {events : List PollEvent} {s s' : Ledgered ε ω}
    {result : Except IoError Point} (owned : Owned s)
    (strands : Strands env.ledgered runtime (ledgeredOutbounds outbounds)
      (.inbound (burst + 1) events) s)
    (received : receiveInbound env.ledgered runtime (ledgeredOutbounds outbounds) burst events s =
      some (result, s')) : ¬(holdings s').Wired := by
  obtain ⟨burst', events', datagram, world, endpoint, same, answer, selected, fails⟩ := strands
  cases same
  have ledger := recvOriginalDatagram_ledger env answer
  have view' : view { s with world := (env.ledgered.nextFlowId world).2 } = view s :=
    view_of_parts rfl rfl rfl rfl ledger
  cases receiveInbound_cases env.ledgered runtime (ledgeredOutbounds outbounds) received with
  | failed other => cases answer.symm.trans other
  | drained other => cases answer.symm.trans other
  | arrived read handled touched =>
      cases answer.symm.trans read
      have same := (Prod.mk.inj ((touch_view env datagram.client).when _ _ _ touched)).1
      rw [same]
      obtain ⟨state, _, _, _, found, -⟩ := id fails
      cases handleInbound_cases env runtime handled with
      | dropped none =>
          have other := none.symm.trans selected
          cases other
      | refused now absent =>
          rw [absent] at found
          cases found
      | known selected' found' sent =>
          have endpoints := Option.some.inj (selected'.symm.trans selected)
          subst endpoints
          exact sendInbound_not_wired (owned.of_view view').sound fails sent
      | entered now selected' absent =>
          rw [absent] at found
          cases found

/-- One step keeps the wiring, unless it strands a route. -/
theorem step_wired {point point' : Point} {s s' : Ledgered ε ω} (owned : Owned s)
    (known : ReadyKnown s point)
    (wired : (holdings s).Wired)
    (elsewhere : ¬Strands env.ledgered runtime (ledgeredOutbounds outbounds) point s)
    (stepped : step env.ledgered runtime (ledgeredOutbounds outbounds) point s =
      some (point', s')) :
    (holdings s').Wired := by
  obtain ⟨result, proceeded⟩ := proceed_of_step stepped
  match point with
  | .top => exact pollEvents_wired env owned wired proceeded
  | .inbound 0 events =>
      cases proceeded
      exact wired
  | .inbound (burst + 1) events =>
      exact receiveInbound_wired env runtime owned wired elsewhere proceeded
  | .outbound [] _ =>
      cases proceeded
      exact wired
  | .outbound (_ :: ready) 0 =>
      cases proceeded
      exact wired
  | .outbound ((token, client) :: ready) (burst + 1) =>
      obtain ⟨_, routes, _, there, -⟩ :=
        owned.sound.indexed token client (known _ List.mem_cons_self)
      obtain ⟨state, found, -⟩ := Option.map_eq_some_iff.mp there
      rw [proceed_receive _ _ _ found] at proceeded
      rcases Run.bind_eq_some proceeded with ⟨received, s₁, receives, rest⟩ | ⟨e, receives, -⟩
      · obtain ⟨same, -⟩ := receiveOutbound_view found receives
        have known₁ : ReadyKnown s₁ (.outbound ((token, client) :: ready) burst) := by
          intro entry member
          rw [(Prod.mk.inj same).1]
          exact known entry member
        obtain ⟨held, -⟩ := answer_owned env (owned.of_view same) known₁ rest
        rw [held]
        exact wired_of_view same wired
      · obtain ⟨same, -⟩ := receiveOutbound_view found receives
        exact wired_of_view same wired
  | .returned _ =>
      cases proceeded
      exact wired

/-- As long as no datagram fails on a new route of a client that is there, every token of a route
leads to its client; and the step that receives such a datagram leaves a route that no token leads
to. -/
theorem wired_unless_new_route_fails (env : Env ω) (runtime : Runtime)
    (outbounds : Outbounds ε ω) (world : ω) :
    (∀ point s, Reaches env.ledgered runtime (ledgeredOutbounds outbounds)
      (fun point s => ¬Strands env.ledgered runtime (ledgeredOutbounds outbounds) point s)
      { world := (world, {}) } point s → Wired s) ∧
    ∀ point s point' s', Reaches env.ledgered runtime
      (ledgeredOutbounds outbounds) (fun _ _ => True)
      { world := (world, {}) } point s →
      step env.ledgered runtime (ledgeredOutbounds outbounds) point s = some (point', s') →
        Strands env.ledgered runtime (ledgeredOutbounds outbounds) point s → ¬Wired s' := by
  constructor
  · intro point s reached
    rw [← wired_iff]
    induction reached with
    | start =>
        rintro client endpoint token ⟨routes, tokens, found, -⟩
        cases found
    | step earlier elsewhere stepped wired =>
        obtain ⟨owned, known⟩ := earlier.owned env runtime
        exact step_wired env runtime owned known wired elsewhere stepped
  · intro point s point' s' reached stepped strands
    obtain ⟨owned, -⟩ := reached.owned env runtime
    obtain ⟨result, proceeded⟩ := proceed_of_step stepped
    have here := strands
    obtain ⟨burst, events, _, _, _, rfl, -⟩ := here
    rw [← wired_iff]
    exact receiveInbound_not_wired env runtime owned strands proceeded

/-- The first datagram of a client goes through the proxy endpoint, and its token leads to it. -/
theorem wired_unless_new_route_fails_example :
    ∃ s, Reaches Env.messages.ledgered proxied (ledgeredOutbounds answering)
        (fun point s =>
          ¬Strands Env.messages.ledgered proxied (ledgeredOutbounds answering) point s)
        { world := ([messageFrom 1 true], {}) } (.inbound 31 [⟨0, { readable := true }⟩]) s ∧
      OwnsToken s ⟨.v4 ⟨10, 0, 0, 1⟩, 5000⟩ (.proxy proxyOne) 1 ∧ Wired s := by
  have run : ∃ s, Reaches Env.messages.ledgered proxied (ledgeredOutbounds answering)
        (fun point s =>
          ¬Strands Env.messages.ledgered proxied (ledgeredOutbounds answering) point s)
        { world := ([messageFrom 1 true], {}) } (.inbound 31 [⟨0, { readable := true }⟩]) s ∧
      OwnsToken s ⟨.v4 ⟨10, 0, 0, 1⟩, 5000⟩ (.proxy proxyOne) 1 := by
    refine ⟨_, .step (.step .start ?_ rfl) ?_ rfl, ⟨_, _, rfl, rfl, List.mem_cons_self⟩⟩
    · rintro ⟨_, _, _, _, _, other, -⟩
      cases other
    · rintro ⟨_, _, _, _, _, -, -, -, _, _, _, _, found, -⟩
      cases found
  obtain ⟨s, reached, owns⟩ := run
  exact ⟨s, reached, owns,
    (wired_unless_new_route_fails Env.messages proxied answering [messageFrom 1 true]).1 _ s
      reached⟩

/-- DIRECT associations that take every datagram, and proxied ones that refuse every one. -/
def refusingProviders : DatagramProviders Unit Unit Unit ω where
  direct := ⟨fun _ => 1, fun _ => pure (), fun _ _ => pure (), fun _ => pure none⟩
  openDirect := pure ()
  provided :=
    ⟨fun _ => 1, fun _ => pure (), fun _ _ => Run.fail ⟨.writeZero, "refused"⟩, fun _ => pure none⟩
  openProvided _ := pure ()

/-- A client sends directly first; its second datagram opens the proxied route and fails on it. The
route owns token 2, which leads nowhere. -/
theorem new_route_left_unwired :
    ∃ s, Reaches Env.messages.ledgered proxied
        (ledgeredOutbounds ((OutboundRegistry.single proxyOne).outbounds refusingProviders))
        (fun _ _ => True) { world := ([messageFrom 1 false, messageFrom 1 true], {}) }
        (.inbound 30 [⟨0, { readable := true }⟩]) s ∧
      OwnsToken s ⟨.v4 ⟨10, 0, 0, 1⟩, 5000⟩ (.proxy proxyOne) 2 ∧ s.tokenClients.lookup 2 = none ∧
      ¬Wired s := by
  refine ⟨_, .step (.step (.step .start trivial rfl) trivial rfl) trivial rfl,
    ⟨_, _, rfl, rfl, List.mem_cons_self⟩, rfl, ?_⟩
  intro wired
  have known := wired ⟨.v4 ⟨10, 0, 0, 1⟩, 5000⟩ (.proxy proxyOne) 2
    ⟨_, _, rfl, rfl, List.mem_cons_self⟩
  cases known

end Commeatus.Daemon.TransparentUdp
