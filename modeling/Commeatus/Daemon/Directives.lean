import Commeatus.Daemon.ConfigFile

/-!
What each line of an accepted configuration does to the accumulators.

A line is empty or a directive that has passed its checks; the accepted text is
a sweep of such lines. All that is known of a configuration follows from this.
-/

namespace Commeatus.Daemon

open Commeatus.Lib Commeatus.Core Commeatus.Dns Commeatus.Compat

variable {η : Type} (platform : Platform η)

/-- The resolver that a line declares. -/
inductive ResolverLine : List Str → ConfiguredResolver η → Prop where
  | system : ResolverLine ["resolver".toList, "system".toList] .system
  | dot {address serverName : Str} {transport : TlsTransport η}
      (parses : ScopedAddr.parse address = some transport.address)
      (valid : platform.serverName (toAsciiLowercase serverName) = .ok transport.serverName) :
      ResolverLine ["resolver".toList, "dot".toList, address, serverName] (.dot transport)

/-- The endpoint that a line declares. -/
structure EndpointLine (fields : List Str) (config : EndpointConfig η) : Prop where
  id : fields[1]? = some config.id.value
  datagram : config.datagram.isSome = true ↔ fields[2]? = some "trojan".toList
  protocol : config.protocol.capabilities.requiresTls = config.datagram.isSome

/-- The rule that a line declares, but for its number. -/
inductive RuleLine (root : Str) (fields : List Str) : PolicyRule → Prop where
  | rule {line : Nat} {id : RuleId} {parsed : ParsedRule} (word : keyword fields = some .rule)
      (parses : parseRule fields line id = .ok parsed) : RuleLine root fields parsed.rule
  | blocklist {line : Nat} {id : RuleId} {filter : DomainFilter} {stats : BlocklistStats}
      (word : keyword fields = some .blocklist)
      (loads : loadBlocklist platform (resolveAssetPath root (fieldAt fields 1)) line =
        .ok (filter, stats)) :
      RuleLine root fields ⟨id, .userHard, .domainFilter filter, .reject .policy⟩

/-- What a directive does to the accumulators, with the checks that it has passed. -/
inductive Effect (root : Str) (fields : List Str) (s : ParseState η) :
    Keyword → ParseState η → Prop where
  | version : Effect root fields s .version { s with versionSeen := true }
  | allowPublicListen {allow : Bool}
      (value : allow = true → fields = ["allow-public-listen".toList, "true".toList]) :
      Effect root fields s .allowPublicListen { s with allowPublicListen := some allow }
  | listen (protocol : ListenerProtocol) (address : ScopedAddr)
      (room : s.listeners.length < maxListeners)
      (fresh : (protocol.isUdp, address) ∉ s.listenerAddresses) :
      Effect root fields s .listen { s with
        listenerAddresses := s.listenerAddresses ++ [(protocol.isUdp, address)]
        listeners := s.listeners ++ [⟨protocol, address⟩] }
  | resolver {resolver : ConfiguredResolver η} (key : Str) (summary : DnsResolverSummary)
      (declares : ResolverLine platform fields resolver) :
      Effect root fields s .resolver { s with
        dnsResolverKeys := s.dnsResolverKeys ++ [key]
        dnsResolverSummaries := s.dnsResolverSummaries ++ [summary]
        dnsResolvers := s.dnsResolvers ++ [resolver] }
  | endpoint {config : EndpointConfig η} (declares : EndpointLine fields config)
      (fresh : config.id ∉ s.endpointIds) :
      Effect root fields s .endpoint { s with
        endpointIds := s.endpointIds ++ [config.id]
        endpointConfigs := s.endpointConfigs ++ [config] }
  | default {line : Nat} {parsed : ParsedAction}
      (parses : parseAction (fieldAt fields 1) line = .ok parsed) :
      Effect root fields s .default { s with
        referencedEndpoints := s.referencedEndpoints ++ parsed.proxyRef.toList
        defaultAction := some parsed.action }
  | blocklist {line : Nat} {filter : DomainFilter} {stats : BlocklistStats} (path : List Str)
      (summary : BlocklistSummary)
      (room : s.rules.length < maxRules)
      (loads : loadBlocklist platform (resolveAssetPath root (fieldAt fields 1)) line =
        .ok (filter, stats)) :
      Effect root fields s .blocklist { s with
        blocklistPaths := s.blocklistPaths ++ [path]
        rules := s.rules ++ [⟨s.nextRuleId, .userHard, .domainFilter filter, .reject .policy⟩]
        nextRuleId := s.nextRuleId + 1
        blocklists := s.blocklists ++ [summary] }
  | hosts (path : List Str) (table : HostsTable) (summary : HostsSummary) :
      Effect root fields s .hosts { s with
        hostsPaths := s.hostsPaths ++ [path]
        hostsTable := s.hostsTable.merge table
        hosts := s.hosts ++ [summary] }
  | rule {line : Nat} {parsed : ParsedRule} (room : s.rules.length < maxRules)
      (parses : parseRule fields line s.nextRuleId = .ok parsed) :
      Effect root fields s .rule { s with
        referencedEndpoints := s.referencedEndpoints ++ parsed.proxyRef.toList
        rules := s.rules ++ [parsed.rule]
        nextRuleId := s.nextRuleId + 1 }

variable {platform} {root : Str} {fields : List Str} {line : Nat} {s t : ParseState η}

/-- A line begins with its keyword. -/
theorem head_of_keyword {word : Keyword} (known : keyword fields = some word) :
    fields.head? = some word.text := by
  have found := List.find?_some known
  simpa using found

/-- The fields of a line that has two. -/
theorem fields_of_expect {word : Keyword} {message : String} {u : Unit}
    (known : keyword fields = some word)
    (counted : expectFields fields 2 line message = .ok u) :
    fields = [word.text, fieldAt fields 1] := by
  have head := head_of_keyword known
  obtain ⟨first, second, rfl⟩ := List.length_eq_two.mp (not_not.mp (refuse_eq_ok_iff.mp counted))
  cases head
  rfl

/-! ### The directives one by one -/

theorem versionDirective_effect (ok : versionDirective fields line s = .ok t) :
    Effect platform root fields s .version t := by
  obtain ⟨-, ok⟩ := refuse_bind_eq_ok_iff.mp ok
  obtain ⟨-, ok⟩ := refuse_bind_eq_ok_iff.mp ok
  obtain ⟨-, ok⟩ := refuse_bind_eq_ok_iff.mp ok
  cases ok
  exact .version

theorem parseSwitch_true {value : Str} (parses : parseSwitch value line = .ok true) :
    value = "true".toList := by
  unfold parseSwitch at parses
  split at parses
  · assumption
  · split at parses <;> cases parses

theorem allowPublicListenDirective_effect (word : keyword fields = some .allowPublicListen)
    (ok : allowPublicListenDirective fields line s = .ok t) :
    Effect platform root fields s .allowPublicListen t := by
  obtain ⟨u, counted, ok⟩ := bind_eq_ok_iff.mp ok
  obtain ⟨-, ok⟩ := refuse_bind_eq_ok_iff.mp ok
  obtain ⟨allow, parses, ok⟩ := bind_eq_ok_iff.mp ok
  cases ok
  refine .allowPublicListen fun allowed => ?_
  subst allowed
  rw [fields_of_expect word counted, parseSwitch_true parses]
  rfl

theorem listenDirective_effect (ok : listenDirective fields line s = .ok t) :
    Effect platform root fields s .listen t := by
  obtain ⟨-, ok⟩ := refuse_bind_eq_ok_iff.mp ok
  obtain ⟨room, ok⟩ := refuse_bind_eq_ok_iff.mp ok
  obtain ⟨protocol, -, ok⟩ := bind_eq_ok_iff.mp ok
  obtain ⟨address, -, ok⟩ := bind_eq_ok_iff.mp ok
  obtain ⟨-, ok⟩ := refuse_bind_eq_ok_iff.mp ok
  obtain ⟨fresh, ok⟩ := refuse_bind_eq_ok_iff.mp ok
  cases ok
  exact .listen protocol address (Nat.lt_of_not_le room) fresh

/-- A carrier that was made has the address, and the name that was found valid. -/
theorem webpki_eq_ok {address : ScopedAddr} {serverName : Str} {transport : TlsTransport η}
    (made : webpki platform address serverName = .ok transport) :
    transport.address = address ∧ platform.serverName serverName = .ok transport.serverName := by
  unfold webpki at made
  split at made
  · rename_i valid
    cases made
    exact ⟨rfl, valid⟩
  · cases made

theorem dotResolver_eq_ok {address : ScopedAddr} {serverName : Str} {transport : TlsTransport η}
    (made : dotResolver platform address serverName line = .ok transport) :
    transport.address = address ∧ platform.serverName serverName = .ok transport.serverName := by
  unfold dotResolver at made
  split at made
  · rename_i carrier
    cases made
    exact webpki_eq_ok carrier
  · cases made

theorem resolverDirective_effect (word : keyword fields = some .resolver)
    (ok : resolverDirective platform fields line s = .ok t) :
    Effect platform root fields s .resolver t := by
  have head := head_of_keyword word
  replace ok := (refuse_bind_eq_ok_iff.mp ok).2
  dsimp only at ok
  split at ok
  · cases head
    split at ok
    · rename_i system
      subst system
      obtain ⟨-, ok⟩ := refuse_bind_eq_ok_iff.mp ok
      cases ok
      exact .resolver _ _ .system
    · cases ok
  · cases head
    split at ok
    · rename_i dot
      subst dot
      obtain ⟨address, parses, ok⟩ := okOr_bind_eq_ok_iff.mp ok
      obtain ⟨-, ok⟩ := refuse_bind_eq_ok_iff.mp ok
      obtain ⟨-, ok⟩ := refuse_bind_eq_ok_iff.mp ok
      obtain ⟨transport, made, ok⟩ := bind_eq_ok_iff.mp ok
      obtain ⟨rfl, valid⟩ := dotResolver_eq_ok made
      cases ok
      exact .resolver _ _ (.dot parses valid)
    · cases ok
  · cases ok

theorem EndpointId.new_value {value : Str} {id : EndpointId}
    (made : EndpointId.new value line = .ok id) :
    id.value = value := by
  unfold EndpointId.new at made
  split at made
  · cases made
    rfl
  · cases made

/-- A protocol that runs over any carrier is not Trojan. -/
theorem plainProtocol_eq_some {value : Str} {plain : OutboundProtocol}
    (known : plainProtocol value = some plain) :
    value ≠ "trojan".toList ∧ plain.capabilities.requiresTls = false := by
  unfold plainProtocol at known
  split at known
  · rename_i socks5
    subst socks5
    cases known
    exact ⟨by decide, rfl⟩
  · split at known
    · rename_i http
      subst http
      cases known
      exact ⟨by decide, rfl⟩
    · cases known

/-- An endpoint of a plain protocol has no datagrams. -/
theorem EndpointLine.plain {word protocol : Str} {rest : List Str} {id : EndpointId}
    {plain : OutboundProtocol}
    (known : plainProtocol protocol = some plain) (transport : TransportConfig η) :
    EndpointLine (word :: id.value :: protocol :: rest) ⟨id, plain, none, transport⟩ where
  id := rfl
  datagram := by
    constructor
    · intro no
      cases no
    · intro trojan
      exact absurd (Option.some.inj trojan) (plainProtocol_eq_some known).1
  protocol := (plainProtocol_eq_some known).2

theorem parseEndpoint_line {id : EndpointId} {config : EndpointConfig η}
    (named : fields[1]? = some id.value)
    (parses : parseEndpoint platform id fields line = .ok config) :
    EndpointLine fields config ∧ config.id = id := by
  unfold parseEndpoint at parses
  split at parses
  · cases named
    split at parses
    · rename_i plain known
      obtain ⟨address, -, made⟩ := bind_eq_ok_iff.mp parses
      cases made
      exact ⟨.plain known _, rfl⟩
    · cases parses
  · cases named
    split at parses
    · rename_i plain known tcp
      obtain ⟨address, -, made⟩ := bind_eq_ok_iff.mp parses
      cases made
      exact ⟨.plain known _, rfl⟩
    · cases parses
  · cases named
    split at parses
    · rename_i plain known tls
      obtain ⟨transport, -, made⟩ := bind_eq_ok_iff.mp parses
      cases made
      exact ⟨.plain known _, rfl⟩
    · cases parses
  · cases named
    split at parses
    · rename_i trojan
      obtain ⟨rfl, rfl⟩ := trojan
      obtain ⟨verifier, -, parses⟩ := bind_eq_ok_iff.mp parses
      obtain ⟨tls, -, made⟩ := bind_eq_ok_iff.mp parses
      cases made
      exact ⟨⟨rfl, by simp, rfl⟩, rfl⟩
    · cases parses
  · cases parses

theorem endpointDirective_effect (ok : endpointDirective platform fields line s = .ok t) :
    Effect platform root fields s .endpoint t := by
  obtain ⟨-, ok⟩ := refuse_bind_eq_ok_iff.mp ok
  obtain ⟨value, named, ok⟩ := okOr_bind_eq_ok_iff.mp ok
  obtain ⟨id, valid, ok⟩ := bind_eq_ok_iff.mp ok
  obtain ⟨fresh, ok⟩ := refuse_bind_eq_ok_iff.mp ok
  obtain ⟨config, parses, ok⟩ := bind_eq_ok_iff.mp ok
  rw [← EndpointId.new_value valid] at named
  obtain ⟨declares, rfl⟩ := parseEndpoint_line named parses
  cases ok
  exact .endpoint declares fresh

theorem defaultDirective_effect (ok : defaultDirective fields line s = .ok t) :
    Effect platform root fields s .default t := by
  obtain ⟨-, ok⟩ := refuse_bind_eq_ok_iff.mp ok
  obtain ⟨-, ok⟩ := refuse_bind_eq_ok_iff.mp ok
  obtain ⟨parsed, parses, ok⟩ := bind_eq_ok_iff.mp ok
  cases ok
  exact .default parses

theorem blocklistDirective_effect (ok : blocklistDirective platform root fields line s = .ok t) :
    Effect platform root fields s .blocklist t := by
  obtain ⟨-, ok⟩ := refuse_bind_eq_ok_iff.mp ok
  obtain ⟨-, ok⟩ := refuse_bind_eq_ok_iff.mp ok
  obtain ⟨room, ok⟩ := refuse_bind_eq_ok_iff.mp ok
  obtain ⟨-, ok⟩ := refuse_bind_eq_ok_iff.mp ok
  obtain ⟨⟨filter, stats⟩, loads, ok⟩ := bind_eq_ok_iff.mp ok
  cases ok
  exact .blocklist _ _ (Nat.lt_of_not_le room) loads

theorem hostsDirective_effect (ok : hostsDirective platform root fields line s = .ok t) :
    Effect platform root fields s .hosts t := by
  obtain ⟨-, ok⟩ := refuse_bind_eq_ok_iff.mp ok
  obtain ⟨-, ok⟩ := refuse_bind_eq_ok_iff.mp ok
  obtain ⟨-, ok⟩ := refuse_bind_eq_ok_iff.mp ok
  obtain ⟨table, -, ok⟩ := bind_eq_ok_iff.mp ok
  cases ok
  exact .hosts _ table _

theorem ruleDirective_effect (ok : ruleDirective fields line s = .ok t) :
    Effect platform root fields s .rule t := by
  obtain ⟨room, ok⟩ := refuse_bind_eq_ok_iff.mp ok
  obtain ⟨parsed, parses, ok⟩ := bind_eq_ok_iff.mp ok
  cases ok
  exact .rule (Nat.lt_of_not_le room) parses

/-! ### Lines -/

theorem directive_effect {word : Keyword} (known : keyword fields = some word)
    (ok : word.directive platform root fields line s = .ok t) :
    Effect platform root fields s word t := by
  cases word with
  | version => exact versionDirective_effect ok
  | allowPublicListen => exact allowPublicListenDirective_effect known ok
  | listen => exact listenDirective_effect ok
  | resolver => exact resolverDirective_effect known ok
  | endpoint => exact endpointDirective_effect ok
  | default => exact defaultDirective_effect ok
  | blocklist => exact blocklistDirective_effect ok
  | hosts => exact hostsDirective_effect ok
  | rule => exact ruleDirective_effect ok

variable (platform root) in
/-- A line that was accepted is empty or a directive. -/
inductive Reads (fields : List Str) (s : ParseState η) : ParseState η → Prop where
  | empty (blank : fields = []) : Reads fields s s
  | directive {word : Keyword} {t : ParseState η} (known : keyword fields = some word)
      (effect : Effect platform root fields s word t) : Reads fields s t

theorem parseLine_reads {raw : Str} (ok : parseLine platform root raw line s = .ok t) :
    Reads platform root (lineFields raw) s t := by
  unfold parseLine at ok
  dsimp only at ok
  split at ok
  · rename_i blank
    cases ok
    exact .empty (List.head?_eq_none_iff.mp blank)
  · split at ok
    · rename_i known
      exact .directive known (directive_effect known ok)
    · cases ok

/-- The accepted lines are a sweep. -/
theorem parseLines_sweep {raws : List Str} (ok : parseLines platform root raws line s = .ok t) :
    Sweep (Reads platform root) (raws.map lineFields) s t := by
  induction raws generalizing line s with
  | nil =>
      cases ok
      exact .nil _
  | cons raw raws ih =>
      obtain ⟨u, first, rest⟩ := bind_eq_ok_iff.mp ok
      exact .cons (parseLine_reads first) (ih rest)

/-- The line begins with one of the keywords. -/
def isLine (words : List Keyword) (fields : List Str) : Bool :=
  (keyword fields).any fun word => words.contains word

/-- The lines of a text that begin with one of the keywords, in their order. -/
def linesOf (words : List Keyword) (text : Str) : List (List Str) :=
  ((lines text).map lineFields).filter (isLine words)

/-- What is known of the directives is known of the lines. -/
theorem Reads.collects {β : Type} {items : ParseState η → List β} {words : List Keyword}
    {R : List Str → β → Prop}
    (grows : ∀ word ∈ words, keyword fields = some word → Effect platform root fields s word t →
      ∃ item, R fields item ∧ items t = items s ++ [item])
    (stays : ∀ word ∉ words, Effect platform root fields s word t → items t = items s)
    (reads : Reads platform root fields s t) :
    Sweep.Collects items (isLine words) R fields s t := by
  cases reads with
  | empty blank =>
      subst blank
      exact ⟨(fun no => nomatch no), fun _ => rfl⟩
  | @directive word _ known effect =>
      constructor
      · intro picked
        exact grows word (by simpa [isLine, known] using picked) known effect
      · intro other
        exact stays word (by simpa [isLine, known] using other) effect

/-! ### The whole text -/

/-- What the end of an accepted text makes of the accumulators, with the checks that they have
passed. -/
structure Finishes (s : ParseState η) (compiled : CompiledConfig η) : Prop where
  listeners : compiled.listeners = s.listeners
  listening : s.listeners ≠ []
  guarded : s.allowPublicListen = some true ∨ ∀ listener ∈ s.listeners,
    listener.address.ip.isLoopback = true
  runtime : ∃ defaultAction, s.defaultAction = some defaultAction ∧
    compiled.runtime = ⟨.new s.rules defaultAction⟩
  outbounds : Registry.new s.endpointConfigs = .ok compiled.outbounds
  referenced : ∀ id ∈ s.referencedEndpoints, compiled.outbounds.contains id = true
  resolvers : compiled.dns.resolvers = if s.dnsResolvers = [] then [.system] else s.dnsResolvers

theorem buildOutbounds_eq_ok {outbounds : Registry η} (built : buildOutbounds s = .ok outbounds) :
    Registry.new s.endpointConfigs = .ok outbounds := by
  unfold buildOutbounds at built
  split at built
  · rename_i made
    cases built
    exact made
  · cases built

theorem withResolvers_resolvers {ρ : Type} {hosts : HostsTable}
    {resolvers : List ρ} {capacity ttl : Nat}
    {engine : DnsEngine ρ}
    (made : DnsEngine.withResolvers hosts resolvers capacity ttl = .ok engine) :
    engine.resolvers = resolvers := by
  obtain ⟨-, made⟩ := refuse_bind_eq_ok_iff.mp made
  obtain ⟨cache, -, made⟩ := bind_eq_ok_iff.mp made
  cases made
  rfl

theorem buildDns_resolvers {dns : DnsEngine (ConfiguredResolver η)}
    {summaries : List DnsResolverSummary}
    (built : buildDns s = .ok (dns, summaries)) :
    dns.resolvers = if s.dnsResolvers = [] then [.system] else s.dnsResolvers := by
  unfold buildDns at built
  split at built
  · rename_i none
    cases built
    rw [if_pos (List.isEmpty_iff.mp none)]
    rfl
  · rename_i some
    rw [if_neg (by simpa using some)]
    split at built
    · rename_i made
      cases built
      exact withResolvers_resolvers made
    · cases built

theorem finish_finishes {compiled : CompiledConfig η} (ok : finish s = .ok compiled) :
    Finishes s compiled := by
  obtain ⟨-, ok⟩ := refuse_bind_eq_ok_iff.mp ok
  obtain ⟨listening, ok⟩ := refuse_bind_eq_ok_iff.mp ok
  obtain ⟨guarded, ok⟩ := refuse_bind_eq_ok_iff.mp ok
  obtain ⟨defaultAction, chosen, ok⟩ := okOr_bind_eq_ok_iff.mp ok
  obtain ⟨outbounds, built, ok⟩ := bind_eq_ok_iff.mp ok
  split at ok
  · cases ok
  rename_i referenced
  obtain ⟨⟨dns, summaries⟩, resolvers, ok⟩ := bind_eq_ok_iff.mp ok
  cases ok
  refine ⟨rfl, listening, ?_, ⟨defaultAction, chosen, rfl⟩, buildOutbounds_eq_ok built, ?_,
    buildDns_resolvers resolvers⟩
  · by_cases closed : s.allowPublicListen.getD false = false
    · refine .inr fun listener member => ?_
      by_contra outside
      exact guarded ⟨closed, List.any_eq_true.mpr ⟨listener, member, by simpa using outside⟩⟩
    · cases switch : s.allowPublicListen with
      | none => exact absurd (by rw [switch]; rfl) closed
      | some allow => exact .inl (by simpa [switch] using closed)
  · intro id member
    simpa using List.find?_eq_none.mp referenced id member

/-- An accepted text is a sweep of lines that passes the checks at its end. -/
theorem parseConfigAt_sweep {text : Str} {compiled : CompiledConfig η}
    (accepted : parseConfigAt platform text root = .ok compiled) :
    ∃ s, Sweep (Reads platform root) ((lines text).map lineFields) {} s ∧ Finishes s compiled := by
  obtain ⟨-, ok⟩ := refuse_bind_eq_ok_iff.mp accepted
  obtain ⟨s, read, ok⟩ := bind_eq_ok_iff.mp ok
  exact ⟨s, parseLines_sweep read, finish_finishes ok⟩

end Commeatus.Daemon
