import Commeatus.Daemon.Socks5
import Commeatus.Daemon.HttpConnect
import Commeatus.Daemon.Config
import Commeatus.Dns.Name

/-!
The three inbound parsers side by side: what a client can make the daemon take
for a destination, and how policy and DNS judge it.

Every parser lowercases a name and trims its trailing dots, but they differ in
what else they look at. HTTP tests for an address before it trims; SOCKS5 does
not test at all. No parser trims leading dots, which the DNS layer and the rule
compiler both do.
-/

namespace Commeatus.Daemon

open Commeatus.Lib Commeatus.Core

/-- What a client sends to name a destination. -/
inductive InboundInput where
  | socks5Stream (stream : ByteStream)
  | socks5Packet (packet : Bytes)
  | httpAuthority (authority : Str)

/-- The target a parser accepts, if it accepts one. -/
def InboundInput.accepts : InboundInput → Option Target
  | .socks5Stream stream =>
      match (Socks5.readRequest stream).1 with
      | .ok (.connect target) => some target
      | _ => none
  | .socks5Packet packet => (Socks5.parseUdpRequest packet).toOption.map Prod.fst
  | .httpAuthority authority => (HttpConnect.parseAuthority authority).toOption

/-- The text of a request written as a name, as the client wrote it: an address of type 3 in
SOCKS5, a host that is not itself an address in HTTP. -/
def InboundInput.nameText : InboundInput → Option Str
  | .socks5Stream stream => Socks5.nameField stream.incoming
  | .socks5Packet packet => Socks5.nameField packet
  | .httpAuthority authority =>
      (HttpConnect.authorityHost authority).filter fun host => (IpAddr.parse host).isNone

/-- The address of a request written as an address: binary in SOCKS5, its text in HTTP. -/
def InboundInput.plainAddress : InboundInput → Option IpAddr
  | .socks5Stream stream => Socks5.binaryAddress stream.incoming
  | .socks5Packet packet => Socks5.binaryAddress packet
  | .httpAuthority authority => (HttpConnect.authorityHost authority).bind IpAddr.parse

/-- The address a request denotes in whichever encoding: a name that is the text of an address,
up to trailing dots, denotes that address too. -/
def InboundInput.namedAddress (input : InboundInput) : Option IpAddr :=
  input.plainAddress.or (input.nameText.bind fun text => IpAddr.parse (trimEndMatches '.' text))

/-- The request writes an address where its parser takes a name. -/
def InboundInput.SpellsAddress (input : InboundInput) : Prop :=
  ∃ text, input.nameText = some text ∧ (IpAddr.parse (trimEndMatches '.' text)).isSome

instance (input : InboundInput) : Decidable input.SpellsAddress :=
  match h : input.nameText with
  | none => isFalse (by rintro ⟨text, found, -⟩; rw [h] at found; cases found)
  | some text =>
      if parses : (IpAddr.parse (trimEndMatches '.' text)).isSome then isTrue ⟨text, h, parses⟩
      else isFalse (by rintro ⟨text', found, isIp⟩; rw [h] at found; cases found; exact parses isIp)

/-- The host that an accepted request gets: one shape for the three parsers. -/
inductive InboundHost (input : InboundInput) : DestinationHost → Prop where
  | ip {address : IpAddr} : input.plainAddress = some address → input.nameText = none →
      InboundHost input (.ip address)
  | domain {text : Str} : input.plainAddress = none → input.nameText = some text →
      byteLen (trimEndMatches '.' text) ≤ 253 → toAsciiLowercase (trimEndMatches '.' text) ≠ [] →
      InboundHost input (.domain (toAsciiLowercase (trimEndMatches '.' text)))

theorem inboundHost_of_hostField {input : InboundInput} (bytes : Bytes) {host : DestinationHost}
    (plain : input.plainAddress = Socks5.binaryAddress bytes)
    (name : input.nameText = Socks5.nameField bytes) (h : Socks5.HostField bytes host) :
    InboundHost input host := by
  cases h with
  | ip address noName => exact .ip (plain.trans address) (name.trans noName)
  | domain noAddress text short nonempty =>
      refine .domain (plain.trans noAddress) (name.trans text) ?_ nonempty
      exact (byteLen_le_of_initial (trimEndMatches_initial '.' _)).trans short

theorem InboundInput.host_of_accepts {input : InboundInput} {t : Target}
    (accepted : input.accepts = some t) : InboundHost input t.host := by
  cases input with
  | socks5Stream stream =>
      refine inboundHost_of_hostField stream.incoming rfl rfl ?_
      simp only [accepts] at accepted
      split at accepted
      · rename_i target request
        cases accepted
        have whole : Socks5.readRequest stream =
            (.ok (.connect t), (Socks5.readRequest stream).2) := Prod.ext request rfl
        exact Socks5.readRequest_connect whole
      · cases accepted
  | socks5Packet packet =>
      refine inboundHost_of_hostField packet rfl rfl ?_
      cases parsed : Socks5.parseUdpRequest packet with
      | error e => simp [accepts, parsed, Except.toOption] at accepted
      | ok result =>
          obtain ⟨target, payload⟩ := result
          simp only [accepts, parsed, Except.toOption, Option.map_some,
            Option.some.injEq] at accepted
          subst accepted
          exact Socks5.parseUdpRequest_host parsed
  | httpAuthority authority =>
      cases parsed : HttpConnect.parseAuthority authority with
      | error e => simp [accepts, parsed, Except.toOption] at accepted
      | ok target =>
          simp only [accepts, parsed, Except.toOption, Option.some.injEq] at accepted
          subst accepted
          generalize hostEq : target.host = host
          have field := HttpConnect.parseAuthority_host parsed
          rw [hostEq] at field
          cases field with
          | ip host parses =>
              refine .ip ?_ ?_
              · simp [plainAddress, host, parses]
              · simp [nameText, host, Option.filter, parses]
          | domain host _ _ parses nonempty short =>
              refine .domain ?_ ?_ short nonempty
              · simp [plainAddress, host, parses]
              · simp [nameText, host, Option.filter, parses]

/-! ### The identity of an address -/

/-- The target of an address, at the port of another target. -/
def Target.atAddress (t : Target) (address : IpAddr) : Target :=
  ⟨.ip address, t.port, t.port_ne_zero⟩

/-- A request is identified canonically: its host is no address text in the guise of a name, and
if it denotes an address, every policy plans for it as for that address. -/
def CanonicalIdentity (input : InboundInput) (t : Target) : Prop :=
  (∀ d, t.host = .domain d → IpAddr.parse d = none) ∧
    ∀ address, input.namedAddress = some address →
      ∀ (rules : List PolicyRule) (defaultAction : PolicyAction) (transport : TransportProtocol)
        (id id' : FlowId),
        planAction ⟨.new rules defaultAction⟩ t transport id =
          planAction ⟨.new rules defaultAction⟩ (t.atAddress address) transport id'

theorem CanonicalIdentity.of_plain {input : InboundInput} {t : Target}
    (accepted : input.accepts = some t) (plain : ¬ input.SpellsAddress) :
    CanonicalIdentity input t := by
  have host := InboundInput.host_of_accepts accepted
  generalize hostEq : t.host = host' at host
  cases host with
  | @ip actual address noName =>
      refine ⟨fun d isDomain => ?_, fun a named rules defaultAction transport id id' => ?_⟩
      · rw [hostEq] at isDomain
        cases isDomain
      · have same : actual = a := by simpa [InboundInput.namedAddress, address] using named
        have host : t.host = (t.atAddress a).host := by
          rw [hostEq, same]
          rfl
        exact planAction_congr host rfl transport id id'
  | @domain text noAddress name _ _ =>
      have notAddress : IpAddr.parse (trimEndMatches '.' text) = none := by
        by_contra isAddress
        exact plain ⟨text, name, Option.isSome_iff_ne_none.mpr isAddress⟩
      refine ⟨fun d isDomain => ?_, fun a named => ?_⟩
      · rw [hostEq] at isDomain
        cases isDomain
        rw [IpAddr.parse_toAsciiLowercase, notAddress]
      · simp [InboundInput.namedAddress, noAddress, name, notAddress] at named

theorem CanonicalIdentity.plain {input : InboundInput} {t : Target}
    (accepted : input.accepts = some t) (canonical : CanonicalIdentity input t) :
    ¬ input.SpellsAddress := by
  rintro ⟨text, name, isAddress⟩
  have host := InboundInput.host_of_accepts accepted
  generalize hostEq : t.host = host' at host
  cases host with
  | ip address noName =>
      rw [noName] at name
      cases name
  | domain noAddress text' _ _ =>
      rw [text'] at name
      cases name
      have notAddress := canonical.1 _ hostEq
      rw [IpAddr.parse_toAsciiLowercase] at notAddress
      rw [notAddress] at isAddress
      cases isAddress

/-- An accepted request is identified canonically exactly when it does not spell an address as a
name; and requests that are so identified get one plan for one address and port, whichever inbound
and encoding they come from. -/
theorem canonical_identity_iff_not_spellsAddress {input : InboundInput} {t : Target}
    (accepted : input.accepts = some t) :
    (CanonicalIdentity input t ↔ ¬ input.SpellsAddress) ∧
    ∀ input' t' address, InboundInput.accepts input' = some t' → ¬ input.SpellsAddress →
      ¬ input'.SpellsAddress →
      input.namedAddress = some address → input'.namedAddress = some address → t.port = t'.port →
      ∀ rules defaultAction transport id id',
        planAction ⟨.new rules defaultAction⟩ t transport id =
          planAction ⟨.new rules defaultAction⟩ t' transport id' := by
  refine ⟨⟨CanonicalIdentity.plain accepted, CanonicalIdentity.of_plain accepted⟩, ?_⟩
  intro input' t' address accepted' plain plain' named named' port rules
    defaultAction transport id id'
  have host : (t.atAddress address).host = (t'.atAddress address).host := rfl
  calc planAction ⟨.new rules defaultAction⟩ t transport id
      = planAction ⟨.new rules defaultAction⟩ (t.atAddress address) transport id :=
        (CanonicalIdentity.of_plain accepted plain).2 address named _ _ _ _ _
    _ = planAction ⟨.new rules defaultAction⟩ (t'.atAddress address) transport id' :=
        planAction_congr host port transport id id'
    _ = planAction ⟨.new rules defaultAction⟩ t' transport id' :=
        ((CanonicalIdentity.of_plain accepted' plain').2 address named' _ _ _ _ _).symm

/-- Instances of the two halves: an HTTP authority that is the text of an address, and the binary
form of the same address. -/
theorem canonical_identity_of_text_and_binary :
    CanonicalIdentity (.httpAuthority "1.2.3.4:80".toList) ⟨.ip (.v4 ⟨1, 2, 3, 4⟩), 80, by decide⟩ ∧
    ∀ rules defaultAction transport id id',
      planAction ⟨.new rules defaultAction⟩ ⟨.ip (.v4 ⟨1, 2, 3, 4⟩), 80, by decide⟩ transport id =
        planAction ⟨.new rules defaultAction⟩ ⟨.ip (.v4 ⟨1, 2, 3, 4⟩), 80, by decide⟩
          transport id' := by
  have text : InboundInput.accepts (.httpAuthority "1.2.3.4:80".toList) =
      some ⟨.ip (.v4 ⟨1, 2, 3, 4⟩), 80, by decide⟩ := by
    decide
  obtain ⟨canonical, agree⟩ := canonical_identity_iff_not_spellsAddress text
  refine ⟨canonical.mpr (by decide), ?_⟩
  exact agree (.socks5Packet [0, 0, 0, 1, 1, 2, 3, 4, 0, 80]) _ (.v4 ⟨1, 2, 3, 4⟩) (by decide)
    (by decide) (by decide)
    (by decide) (by decide) rfl

/-- The packets `00 00 00 03 07 "1.2.3.4" 00 50` and `00 00 00 01 01 02 03 04 00 50` name one
address; a rule that rejects it holds for the second only. -/
theorem ip_rule_sidestepped_by_name :
    ∃ t t' : Target,
      InboundInput.accepts (.socks5Packet [0, 0, 0, 3, 7, 49, 46, 50, 46, 51, 46, 52, 0, 80]) =
        some t ∧
      InboundInput.accepts (.socks5Packet [0, 0, 0, 1, 1, 2, 3, 4, 0, 80]) = some t' ∧
      t.port = t'.port ∧ t.host = .domain "1.2.3.4".toList ∧ t'.host = .ip (.v4 ⟨1, 2, 3, 4⟩) ∧
      IpAddr.parse "1.2.3.4".toList = some (.v4 ⟨1, 2, 3, 4⟩) ∧
      planAction ⟨.new [⟨1, .userHard, .ip (.v4 ⟨1, 2, 3, 4⟩), .reject .policy⟩] (.route .direct)⟩
        t .udp 1 = .route .direct ∧
      planAction ⟨.new [⟨1, .userHard, .ip (.v4 ⟨1, 2, 3, 4⟩), .reject .policy⟩] (.route .direct)⟩
        t' .udp 1 = .reject .policy := by
  refine ⟨⟨.domain "1.2.3.4".toList, 80, by decide⟩, ⟨.ip (.v4 ⟨1, 2, 3, 4⟩), 80, by decide⟩, ?_⟩
  refine ⟨by decide, by decide, rfl, rfl, rfl, by decide, by decide, by decide⟩

/-! ### The name policy judges and the name DNS asks for -/

/-- What every parser guarantees of a name. -/
structure InboundName (d : Str) : Prop where
  nonempty : d ≠ []
  lowercase : toAsciiLowercase d = d
  noTrailingDot : trimEndMatches '.' d = d
  short : byteLen d ≤ 253

theorem InboundInput.inboundName {input : InboundInput} {t : Target} {d : Str}
    (accepted : input.accepts = some t) (isDomain : t.host = .domain d) : InboundName d := by
  have host := host_of_accepts accepted
  rw [isDomain] at host
  cases host with
  | @domain text _ _ short nonempty =>
      refine ⟨nonempty, toAsciiLowercase_idem _, ?_, by rwa [byteLen_toAsciiLowercase]⟩
      rw [← toAsciiLowercase_trimEndMatches (by decide), trimEndMatches_idem]

/-- A name without a leading dot is the name the DNS layer asks for. -/
theorem InboundName.normalizeName_eq {d n : Str} (name : InboundName d) (noDot : d.head? ≠ some '.')
    (normal : Dns.normalizeName d = .ok n) : n = d := by
  have last : d.getLast? ≠ some '.' := name.noTrailingDot ▸ trimEndMatches_getLast?
  rw [(Dns.normalizeName_eq_ok normal).1, trimMatches_eq_self noDot last, name.lowercase]

/-- A normal name has no leading dot and is a rule value as it stands. -/
theorem normalizeDomain_of_normalizeName {d n : Str} (normal : Dns.normalizeName d = .ok n) :
    n.head? ≠ some '.' ∧ normalizeDomain n 1 = .ok n := by
  obtain ⟨rfl, ne, short⟩ := Dns.normalizeName_eq_ok normal
  have ends := toAsciiLowercase_ends (d := '.') (by decide) (trimMatches '.' d)
  have first : (toAsciiLowercase (trimMatches '.' d)).head? ≠ some '.' :=
    fun dot => trimMatches_head? (ends.1.mp dot)
  have last : (toAsciiLowercase (trimMatches '.' d)).getLast? ≠ some '.' :=
    fun dot => trimEndMatches_getLast? (ends.2.mp dot)
  refine ⟨first, normalizeDomain_self ne short ?_ 1⟩
  rw [trimMatches_eq_self first last, toAsciiLowercase_idem]

/-- Policy judges the name that DIRECT execution would resolve exactly when the client's name has no
leading dot. -/
theorem policy_judges_resolved_name_iff {input : InboundInput} {t : Target} {d n : Str}
    (accepted : input.accepts = some t) (isDomain : t.host = .domain d)
    (normal : Dns.normalizeName d = .ok n) :
    (∀ m, Normalised m → ∀ flow : FlowContext,
      m.matchesFlow (flow.withHost (.domain d)) = m.matchesFlow (flow.withHost (.domain n))) ↔
      d.head? ≠ some '.' := by
  have name := InboundInput.inboundName accepted isDomain
  constructor
  · -- The exact rule for the resolved name tells the two apart.
    intro agree dot
    obtain ⟨noDot, value⟩ := normalizeDomain_of_normalizeName normal
    have verdict := agree _ (.domainExact value) (t.flow 0 .tcp)
    have resolved : toAsciiLowercase n = n := by
      rw [(Dns.normalizeName_eq_ok normal).1, toAsciiLowercase_idem]
    have same : d = n := by
      simpa [Matcher.matchesFlow, FlowContext.withHost, eqIgnoreAsciiCase, name.lowercase, resolved]
        using verdict
    exact noDot (same ▸ dot)
  · intro noDot m _ flow
    rw [name.normalizeName_eq noDot normal]

theorem policy_judges_resolved_name_of_example : ∃ t d,
    InboundInput.accepts (.httpAuthority "Example.com.:443".toList) = some t ∧ t.host = .domain d ∧
      Dns.normalizeName d = .ok "example.com".toList ∧ ∀ m, Normalised m → ∀ flow : FlowContext,
        m.matchesFlow (flow.withHost (.domain d)) =
          m.matchesFlow (flow.withHost (.domain "example.com".toList)) := by
  have accepted : InboundInput.accepts (.httpAuthority "Example.com.:443".toList) =
      some ⟨.domain "example.com".toList, 443, by decide⟩ := by decide
  have normal : Dns.normalizeName "example.com".toList = .ok "example.com".toList := by decide
  exact ⟨_, _, accepted, rfl, normal,
    (policy_judges_resolved_name_iff accepted rfl normal).mpr (by decide)⟩

/-- The authority `.example.com:443` is resolved as `example.com`, but the exact rule for
`example.com` does not see it. -/
theorem exact_rule_misses_leading_dot :
    ∃ t : Target, InboundInput.accepts (.httpAuthority ".example.com:443".toList) = some t ∧
      t.host = .domain ".example.com".toList ∧
      Dns.normalizeName ".example.com".toList = .ok "example.com".toList ∧
      Normalised (.domainExact "example.com".toList) ∧
      Matcher.matchesFlow (.domainExact "example.com".toList)
        ((t.flow 1 .tcp).withHost (.domain ".example.com".toList)) = false ∧
      Matcher.matchesFlow (.domainExact "example.com".toList)
        ((t.flow 1 .tcp).withHost (.domain "example.com".toList)) = true := by
  refine ⟨⟨.domain ".example.com".toList, 443, by decide⟩, by decide, rfl, by decide, ?_, by decide,
    by decide⟩
  exact Normalised.domainExact (show normalizeDomain "example.com".toList 1 = _ by decide)

end Commeatus.Daemon
