import Commeatus.Daemon.Directives

/-!
What is known of every configuration that the compiler accepts.

The invariants of the accumulators are proved directive by directive and carried
over the sweep of lines; the checks at the end of the text then close the
references, which may precede what they refer to.
-/

namespace Commeatus.Daemon

open Commeatus.Lib Commeatus.Core Commeatus.Dns Commeatus.Compat

variable {η : Type} {platform : Platform η} {root text : Str} {fields : List Str}
    {line : Nat} {s t : ParseState η}
  {word : Keyword} {compiled : CompiledConfig η}

/-- What every directive keeps is kept by a line. -/
theorem Reads.keeps {P : ParseState η → Prop}
    (effect_keeps : ∀ {word : Keyword}, Effect platform root fields s word t → P s → P t)
    (reads : Reads platform root fields s t) (holds : P s) : P t := by
  cases reads with
  | empty => exact holds
  | directive known effect => exact effect_keeps effect holds

/-! ### Listeners -/

/-- The pair under which a listener must be the only one. -/
def ListenerConfig.binding (listener : ListenerConfig) : Bool × ScopedAddr :=
  (listener.protocol.isUdp, listener.address)

structure Listening (s : ParseState η) : Prop where
  addresses : s.listenerAddresses = s.listeners.map ListenerConfig.binding
  distinct : s.listenerAddresses.Nodup
  few : s.listeners.length ≤ maxListeners

theorem Effect.listening (effect : Effect platform root fields s word t)
    (listening : Listening s) : Listening t := by
  cases effect with
  | listen protocol address room fresh =>
      constructor
      · rw [listening.addresses, List.map_append]
        rfl
      · exact listening.distinct.append (List.nodup_singleton _) (by simpa using fresh)
      · rw [List.length_append]
        exact room
  | _ => exact ⟨listening.addresses, listening.distinct, listening.few⟩

/-- Only its own line switches the guard of public addresses off. -/
theorem Reads.switches (reads : Reads platform root fields s t)
    (allowed : t.allowPublicListen = some true) :
    s.allowPublicListen = some true ∨ fields = ["allow-public-listen".toList, "true".toList] := by
  cases reads with
  | empty => exact .inl allowed
  | directive known effect =>
      cases effect with
      | allowPublicListen value => exact .inr (value (Option.some.inj allowed))
      | _ => exact .inl allowed

/-! ### Rules -/

/-- An action that routes to a proxy comes with the reference. -/
theorem parseAction_reference {value : Str} {parsed : ParsedAction}
    (parses : parseAction value line = .ok parsed)
    {id : EndpointId} (routes : parsed.action = .route (.proxy id)) :
    parsed.proxyRef = some id := by
  unfold parseAction at parses
  split at parses
  · cases parses
    cases routes
  · split at parses
    · cases parses
      cases routes
    · obtain ⟨value, -, parses⟩ := okOr_bind_eq_ok_iff.mp parses
      obtain ⟨id, -, parses⟩ := bind_eq_ok_iff.mp parses
      cases parses
      cases routes
      rfl

/-- A rule line gives the rule its action, with the reference, and nothing else of its place. -/
theorem parseRule_eq_ok {id : RuleId} {parsed : ParsedRule}
    (parses : parseRule fields line id = .ok parsed) :
    parsed.rule.id = id ∧ parsed.rule.tier = .userHard ∧
      ∀ proxy, parsed.rule.action = .route (.proxy proxy) → parsed.proxyRef = some proxy := by
  obtain ⟨-, parses⟩ := refuse_bind_eq_ok_iff.mp parses
  obtain ⟨action, acts, parses⟩ := bind_eq_ok_iff.mp parses
  obtain ⟨matcher, -, parses⟩ := bind_eq_ok_iff.mp parses
  cases parses
  exact ⟨rfl, rfl, fun proxy routes => parseAction_reference acts routes⟩

theorem RuleLine.tier {rule : PolicyRule} (declares : RuleLine platform root fields rule) :
    rule.tier = .userHard := by
  cases declares with
  | rule known parses => exact (parseRule_eq_ok parses).2.1
  | blocklist known loads => rfl

/-- The rules are numbered from one on. -/
structure Numbered (s : ParseState η) : Prop where
  few : s.rules.length ≤ maxRules
  next : s.nextRuleId.toNat = s.rules.length + 1
  ids : ∀ i rule, s.rules[i]? = some rule → rule.id.toNat = i + 1

/-- A rule with the next number, behind the others. -/
theorem Numbered.push (numbered : Numbered s) (room : s.rules.length < maxRules) {rule : PolicyRule}
    (own : rule.id = s.nextRuleId) (rules : t.rules = s.rules ++ [rule])
    (next : t.nextRuleId = s.nextRuleId + 1) :
    Numbered t := by
  have small : s.rules.length < 4096 := room
  constructor
  · rw [rules, List.length_append]
    exact room
  · have counted := numbered.next
    rw [next, rules, List.length_append, UInt64.toNat_add, counted]
    exact Nat.mod_eq_of_lt (by simp; omega)
  · intro i rule' found
    rw [rules] at found
    by_cases earlier : i < s.rules.length
    · rw [List.getElem?_append_left earlier] at found
      exact numbered.ids i rule' found
    · rw [List.getElem?_append_right (Nat.le_of_not_lt earlier)] at found
      obtain ⟨here, same⟩ := List.getElem?_eq_some_iff.mp found
      have last : i = s.rules.length := by
        rw [List.length_singleton] at here
        omega
      subst last
      have : rule' = rule := by simpa using same.symm
      rw [this, own]
      exact numbered.next

theorem Effect.numbered (effect : Effect platform root fields s word t)
    (numbered : Numbered s) : Numbered t := by
  cases effect with
  | blocklist path summary room loads => exact numbered.push room rfl rfl rfl
  | rule room parses => exact numbered.push room (parseRule_eq_ok parses).1 rfl rfl
  | _ => exact ⟨numbered.few, numbered.next, numbered.ids⟩

/-- Rule and blocklist lines, and no others, add to the rules. -/
theorem Reads.collects_rules (reads : Reads platform root fields s t) :
    Sweep.Collects ParseState.rules (isLine [.rule, .blocklist])
      (RuleLine platform root) fields s t := by
  refine reads.collects ?_ ?_
  · intro word member known effect
    cases effect with
    | blocklist path summary room loads => exact ⟨_, .blocklist known loads, rfl⟩
    | rule room parses => exact ⟨_, .rule known parses, rfl⟩
    | _ => simp at member
  · intro word other effect
    cases effect with
    | blocklist => exact absurd (by simp) other
    | rule => exact absurd (by simp) other
    | _ => rfl

/-! ### Endpoints -/

/-- Endpoint lines, and no others, add to the endpoints. -/
theorem Reads.collects_endpoints (reads : Reads platform root fields s t) :
    Sweep.Collects ParseState.endpointConfigs (isLine [.endpoint]) EndpointLine fields s t := by
  refine reads.collects ?_ ?_
  · intro word member known effect
    cases effect with
    | endpoint declares fresh => exact ⟨_, declares, rfl⟩
    | _ => simp at member
  · intro word other effect
    cases effect with
    | endpoint => exact absurd (by simp) other
    | _ => rfl

/-- The proxy of an action is among the references. -/
def References (references : List EndpointId) (action : PolicyAction) : Prop :=
  ∀ id, action = .route (.proxy id) → id ∈ references

theorem References.append {references : List EndpointId} {action : PolicyAction}
    (known : References references action)
    (more : List EndpointId) : References (references ++ more) action :=
  fun id routes => List.mem_append_left more (known id routes)

/-- The reference that an action came with is enough. -/
theorem References.own {proxyRef : Option EndpointId} {action : PolicyAction}
    (reference : ∀ id, action = .route (.proxy id) → proxyRef = some id)
      (references : List EndpointId) :
    References (references ++ proxyRef.toList) action := by
  intro id routes
  rw [reference id routes]
  exact List.mem_append_right _ List.mem_cons_self

/-- All actions refer to endpoints that will be checked. -/
structure Referenced (s : ParseState η) : Prop where
  rules : ∀ rule ∈ s.rules, References s.referencedEndpoints rule.action
  defaultAction : ∀ action, s.defaultAction = some action → References s.referencedEndpoints action

theorem Effect.referenced (effect : Effect platform root fields s word t)
    (referenced : Referenced s) : Referenced t := by
  cases effect with
  | default parses =>
      constructor
      · intro rule member
        exact (referenced.rules rule member).append _
      · rintro action ⟨⟩
        exact .own (fun id routes => parseAction_reference parses routes) _
  | blocklist path summary room loads =>
      constructor
      · intro rule member
        rcases List.mem_append.mp member with earlier | last
        · exact referenced.rules rule earlier
        · cases List.mem_singleton.mp last
          exact fun id no => nomatch no
      · exact referenced.defaultAction
  | rule room parses =>
      constructor
      · intro rule member
        rcases List.mem_append.mp member with earlier | last
        · exact (referenced.rules rule earlier).append _
        · cases List.mem_singleton.mp last
          exact .own (parseRule_eq_ok parses).2.2 _
      · intro action chosen
        exact (referenced.defaultAction action chosen).append _
  | _ => exact ⟨referenced.rules, referenced.defaultAction⟩

/-- Every endpoint carries streams, and datagrams exactly when it has a provider. -/
theorem Registry.capabilities_eq {registry : Registry η} {id : EndpointId}
    {config : EndpointConfig η}
    (found : registry.endpoints.lookup id = some config) :
    registry.capabilities (.proxy id) =
      some ⟨true, config.datagram.isSome, config.transport.capabilities.encrypted⟩ := by
  have seen : registry.outbound.endpoints.lookup id = some config.outbound := by
    rw [outbound, Map.lookup_mapValues, found]
    rfl
  rw [capabilities, OutboundRegistry.capabilities, seen]
  obtain ⟨id, protocol, datagram, transport⟩ := config
  cases protocol <;> cases transport <;> rfl

section Registered

variable {lines : List (List Str)} {configs : List (EndpointConfig η)} {outbounds : Registry η}
  (declared : List.Forall₂ EndpointLine lines configs) (made : Registry.new configs = .ok outbounds)
include declared made

/-- A registered endpoint has its line. -/
theorem line_of_endpoint {id : EndpointId} {config : EndpointConfig η}
    (found : outbounds.endpoints.lookup id = some config) :
    ∃ fields ∈ lines, fields[1]? = some id.value ∧ EndpointLine fields config := by
  obtain ⟨member, rfl⟩ := (Registry.lookup_new made).mp found
  obtain ⟨fields, among, declares⟩ := entry_of_item declared member
  exact ⟨fields, among, declares.id, declares⟩

/-- The registered ids are the declared ones. -/
theorem contains_iff (id : EndpointId) : outbounds.contains id = true ↔ ∃ fields ∈ lines,
    fields[1]? = some id.value := by
  constructor
  · intro registered
    obtain ⟨config, found⟩ := Option.isSome_iff_exists.mp registered
    obtain ⟨fields, among, named, -⟩ := line_of_endpoint declared made found
    exact ⟨fields, among, named⟩
  · rintro ⟨fields, among, named⟩
    obtain ⟨config, member, declares⟩ := item_of_entry declared among
    have same : config.id = id :=
      EndpointId.value_injective (Option.some.inj (declares.id.symm.trans named))
    exact Option.isSome_iff_exists.mpr ⟨config, (Registry.lookup_new made).mpr ⟨member, same⟩⟩

/-- No id is declared twice. -/
theorem nodup_declared : (lines.map fun fields => fields[1]?).Nodup := by
  have ids : (lines.map fun fields => fields[1]?) = (configs.map EndpointConfig.id).map fun id =>
      some id.value := by
    rw [List.map_map, ← List.forall₂_eq_eq_eq, List.forall₂_map_left_iff,
      List.forall₂_map_right_iff]
    exact declared.imp fun fields config declares => declares.id
  rw [ids]
  exact (Registry.nodup_new made).map ((Option.some_injective _).comp EndpointId.value_injective)

end Registered

/-! ### Plans -/

/-- Rules of one tier stay in their order. -/
theorem policy_rules {rules : List PolicyRule} (same : ∀ rule ∈ rules, rule.tier = .userHard)
    (action : PolicyAction) :
    (PolicyEngine.new rules action).rules = rules := by
  refine List.Pairwise.insertionSort_eq
    (List.pairwise_of_forall_mem_list fun x memberX y memberY => ?_)
  rw [same x memberX, same y memberY]

/-- What a flow can be planned for: an endpoint that is not DIRECT was declared by a line of the
text, and has datagrams exactly when the line declares Trojan. -/
inductive Planned (text : Str) (outbounds : Registry η) : ExecutionAction → Prop where
  | reject (reason : RejectReason) : Planned text outbounds (.reject reason)
  | direct : Planned text outbounds (.route .direct)
  | proxy {id : EndpointId} {fields : List Str} {capabilities : EndpointCapabilities}
      (registered : outbounds.contains id = true) (known : outbounds.capabilities (.proxy id) =
        some capabilities)
      (tcp : capabilities.tcp = true) (declared : fields ∈ linesOf [.endpoint] text)
        (named : fields[1]? = some id.value)
      (udp : capabilities.udp = true ↔ fields[2]? = some "trojan".toList) :
        Planned text outbounds (.route (.proxy id))

/-- A registered endpoint can be planned for. -/
theorem Planned.of_registered {text : Str} {configs : List (EndpointConfig η)}
    {outbounds : Registry η}
    (declared : List.Forall₂ EndpointLine (linesOf [.endpoint] text) configs)
    (made : Registry.new configs = .ok outbounds) {id : EndpointId}
    (registered : outbounds.contains id = true) :
    Planned text outbounds (.route (.proxy id)) := by
  obtain ⟨config, found⟩ := Option.isSome_iff_exists.mp registered
  obtain ⟨fields, among, named, declares⟩ := line_of_endpoint declared made found
  exact .proxy registered (Registry.capabilities_eq found) rfl among named declares.datagram

variable (platform root text compiled) in
/-- A configuration that is closed and safe. -/
structure Sound : Prop where
  planned : ∀ flow, Planned text compiled.outbounds (compiled.runtime.plan flow).action
  secured : ∀ id config verifier, compiled.outbounds.endpoints.lookup id = some config →
    config.protocol = .trojan verifier → config.transport.isTls = true
  declared : ∀ id, compiled.outbounds.contains id = true ↔ ∃ fields ∈ linesOf [.endpoint] text,
    fields[1]? = some id.value
  unique : ((linesOf [.endpoint] text).map fun fields => fields[1]?).Nodup
  listening : 1 ≤ compiled.listeners.length ∧ compiled.listeners.length ≤ 16
  distinct :
    (compiled.listeners.map fun listener => (listener.protocol.isUdp, listener.address)).Nodup
  loopback : ["allow-public-listen".toList, "true".toList] ∉ (lines text).map lineFields →
    ∀ listener ∈ compiled.listeners, listener.address.ip.isLoopback = true
  few : compiled.runtime.policy.rules.length ≤ 4096
  ruled :
    List.Forall₂ (RuleLine platform root) (linesOf [.rule, .blocklist] text)
      compiled.runtime.policy.rules
  numbered : ∀ i rule, compiled.runtime.policy.rules[i]? = some rule → rule.id.toNat = i + 1

/-- Whatever the text and the files it refers to, a configuration that was accepted is closed and
safe. -/
theorem accepted_config_sound (accepted : parseConfigAt platform text root = .ok compiled) :
    Sound platform root text compiled := by
  obtain ⟨s, sweep, finishes⟩ := parseConfigAt_sweep accepted
  have listening : Listening s :=
    sweep.preserves (Reads.keeps Effect.listening) ⟨rfl, List.nodup_nil, Nat.zero_le _⟩
  have numbered : Numbered s :=
    sweep.preserves (Reads.keeps Effect.numbered) ⟨Nat.zero_le _, rfl, (fun _ _ no => nomatch no)⟩
  have referenced : Referenced s :=
    sweep.preserves (Reads.keeps Effect.referenced) ⟨(fun _ no => nomatch no),
      (fun _ no => nomatch no)⟩
  obtain ⟨configs, collected, declared⟩ := sweep.collected Reads.collects_endpoints
  obtain ⟨rules, ruled, declaredRules⟩ := sweep.collected Reads.collects_rules
  replace collected : s.endpointConfigs = configs := collected
  replace ruled : s.rules = rules := ruled
  subst configs rules
  obtain ⟨defaultAction, chosen, runtime⟩ := finishes.runtime
  have hard : ∀ rule ∈ s.rules, rule.tier = .userHard := by
    intro rule member
    obtain ⟨fields, -, declares⟩ := entry_of_item declaredRules member
    exact declares.tier
  have rules : compiled.runtime.policy.rules = s.rules := by
    rw [runtime]
    exact policy_rules hard defaultAction
  have closed : ∀ id, compiled.runtime.policy.defaultAction = .route (.proxy id) ∨
      (∃ rule ∈ compiled.runtime.policy.rules, rule.action = .route (.proxy id)) →
      compiled.outbounds.contains id = true := by
    rintro id (routes | ⟨rule, member, routes⟩)
    · rw [runtime] at routes
      exact finishes.referenced id (referenced.defaultAction defaultAction chosen id routes)
    · rw [rules] at member
      exact finishes.referenced id (referenced.rules rule member id routes)
  have made := finishes.outbounds
  refine
    { planned := ?_, secured := ?_, declared := contains_iff declared made,
      unique := nodup_declared declared made,
      listening := ?_, distinct := ?_, loopback := ?_, few := ?_, ruled := ?_, numbered := ?_ }
  · intro flow
    cases plan : (compiled.runtime.plan flow).action with
    | reject reason => exact .reject reason
    | route endpoint =>
        cases endpoint with
        | direct => exact .direct
        | proxy id => exact .of_registered declared made (closed id (Runtime.route_of_plan plan))
  · intro id config verifier found trojan
    exact Registry.secured_new made ⟨id, config⟩ (Map.mem_entries_iff.mpr found)
      (by rw [trojan]; rfl)
  · rw [finishes.listeners]
    exact ⟨List.length_pos_iff.mpr finishes.listening, listening.few⟩
  · rw [finishes.listeners]
    have distinct := listening.distinct
    rw [listening.addresses] at distinct
    exact distinct
  · intro unswitched listener member
    rw [finishes.listeners] at member
    rcases finishes.guarded with allowed | guarded
    · have switched :=
        sweep.occurs (P := fun s => s.allowPublicListen = some true) Reads.switches allowed
      rcases switched with no | ⟨fields, among, rfl⟩
      · cases no
      · exact absurd among unswitched
    · exact guarded listener member
  · rw [rules]
    exact numbered.few
  · rw [rules]
    exact declaredRules
  · rw [rules]
    exact numbered.ids

/-- A platform with one blocklist. The digest is that of the password of the text below. -/
def filePlatform : Platform Str where
  serverName name := .ok name
  sha224 _ :=
    #v[0x95, 0xc7, 0xfb, 0xca, 0x92, 0xac, 0x50, 0x83, 0xaf, 0xda, 0x62, 0xa5, 0x64, 0xa3,
      0xd0, 0x14, 0xfc, 0x3b,
    0x72, 0xc9, 0x14, 0x0e, 0x3c, 0xb9, 0x9e, 0xa6, 0xbf, 0x12]
  metadataLen path := if path = "/ads".toList then .ok 14
    else .error ⟨.notFound, "No such file or directory"⟩
  readToString path :=
    if path = "/ads".toList then .ok "||ads.example^".toList
      else .error ⟨.notFound, "No such file or directory"⟩

/-- The rules and the switch precede what they are about. -/
def forwardText : Str :=
  ("version 1\nrule proxy:far port 443\nblocklist ads\nallow-public-listen true\n" ++
    "default direct\nlisten socks5 0.0.0.0:1080\nendpoint far trojan tls 192.0.2.1:443 far.example secret\n").toList

theorem accepted_config_sound_example :
    ∃ compiled, parseConfigAt filePlatform forwardText ['/'] = .ok compiled ∧
    compiled.runtime.policy.rules.length = 2 ∧ Sound filePlatform ['/'] forwardText compiled := by
  have read : (parseConfigAt filePlatform forwardText ['/']).toOption.map
      (fun compiled => compiled.runtime.policy.rules.length) = some 2 := by decide +kernel
  obtain ⟨compiled, accepted, two⟩ := exists_ok_of_map read
  exact ⟨compiled, accepted, two, accepted_config_sound accepted⟩

end Commeatus.Daemon
