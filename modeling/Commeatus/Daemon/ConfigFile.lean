import Commeatus.Compat.Blocklist
import Commeatus.Daemon.Config
import Commeatus.Daemon.Registry
import Commeatus.Dns.Engine

/-!
The configuration compiler (`daemon/src/config.rs`).

A configuration is read line by line into a dozen accumulators; what concerns
the text as a whole (a version, a listener, loopback addresses, a default
action, references to endpoints) is checked at its end. The file system, the
validation of TLS server names and the SHA-224 digest are given.
-/

namespace Commeatus.Daemon

open Commeatus.Lib Commeatus.Core Commeatus.Dns Commeatus.Compat
open Trojan (TrojanVerifier)

def maxConfigBytes : Nat := 1024 * 1024
def maxRules : Nat := 4096
def maxListeners : Nat := 16
def maxBlocklists : Nat := 8
def maxHostsFiles : Nat := 4
def maxProxyEndpoints : Nat := 64
def maxDnsResolvers : Nat := 8

inductive ListenerProtocol where
  | socks5 | httpConnect | tproxyTcp | tproxyUdp
  deriving DecidableEq, Repr

def ListenerProtocol.isUdp : ListenerProtocol → Bool
  | .tproxyUdp => true
  | _ => false

structure ListenerConfig where
  protocol : ListenerProtocol
  address : ScopedAddr
  deriving DecidableEq

structure BlocklistSummary where
  path : Str
  stats : BlocklistStats

structure HostsSummary where
  path : Str
  records : Nat

inductive DnsResolverSummary where
  | system
  | dot (address : ScopedAddr) (serverName : Str)
  deriving DecidableEq

/-- The resolvers behind the trait object: a DNS-over-TLS resolver is known by its carrier. -/
inductive ConfiguredResolver (η : Type) where
  | system
  | dot (transport : TlsTransport η)
  deriving DecidableEq

structure CompiledConfig (η : Type) where
  listeners : List ListenerConfig
  blocklists : List BlocklistSummary
  hosts : List HostsSummary
  dnsResolvers : List DnsResolverSummary
  runtime : Runtime
  dns : DnsEngine (ConfiguredResolver η)
  outbounds : Registry η

/-- What the compiler uses of its surroundings: `ServerName::try_from` with the text of its error,
the digest, and the file system. -/
structure Platform (η : Type) where
  serverName : Str → Except String η
  sha224 : Bytes → Vector UInt8 28
  metadataLen : Str → Except IoError Nat
  readToString : Str → Except IoError Str

variable {η : Type} (platform : Platform η)

/-! ### Paths -/

def isAbsolute (path : Str) : Bool := path.head? == some '/'

/-- `Path::join`. -/
def joinPath (root path : Str) : Str :=
  if isAbsolute path || root.isEmpty then path
  else if root.getLast? = some '/' then root ++ path
  else root ++ '/' :: path

/-- The components by which paths are compared: repeated and trailing separators do not count, nor
does `.` except in front of a relative path. -/
def pathComponents (path : Str) : List Str :=
  let pieces := (path.splitOn '/').zipIdx.filter fun (piece, index) =>
    !piece.isEmpty && (piece != ['.'] || (index == 0 && !isAbsolute path))
  (if isAbsolute path then [['/']] else []) ++ pieces.map Prod.fst

def resolveAssetPath (root value : Str) : Str := if isAbsolute value then value
    else joinPath root value

/-! ### Values -/

def expectFields (fields : List Str) (expected line : Nat) (message : String) :
    Except ConfigError Unit :=
  refuse (fields.length ≠ expected) ⟨some line, message⟩

def ensureRuleCapacity (current line : Nat) : Except ConfigError Unit :=
  refuse (maxRules ≤ current) ⟨some line, "rule count exceeds 4096"⟩

/-- The field at an index that is known to be in range. -/
def fieldAt (fields : List Str) (index : Nat) : Str := fields.getD index []

def EndpointId.new (value : Str) (line : Nat) : Except ConfigError EndpointId :=
  if valid : validEndpointId value = true then .ok ⟨value, valid⟩
  else .error ⟨some line, "endpoint id must be 1..=64 ASCII alphanumeric/._- characters"⟩

structure ParsedAction where
  action : PolicyAction
  proxyRef : Option EndpointId

def parseAction (value : Str) (line : Nat) : Except ConfigError ParsedAction :=
  if value = "direct".toList then .ok ⟨.route .direct, none⟩
  else if value = "reject".toList then .ok ⟨.reject .policy, none⟩
  else do
    let value ← okOr (stripFront "proxy:".toList value)
      ⟨some line, "action must be `direct`, `reject`, or `proxy:<id>`"⟩
    let id ← EndpointId.new value line
    return ⟨.route (.proxy id), some id⟩

def parsePort (value : Str) (line : Nat) : Except ConfigError UInt16 := do
  let port ← okOr (parseUnsigned 65535 value) ⟨some line, "invalid destination port"⟩
  refuse (port = 0) ⟨some line, "destination port must not be zero"⟩
  return UInt16.ofNat port

def parseCidr (value : Str) (line : Nat) : Except ConfigError IpCidr :=
  match IpCidr.fromStr value with
  | .ok cidr => .ok cidr
  | .error e => .error ⟨some line, e.message⟩

def parseTransport (value : Str) (line : Nat) : Except ConfigError TransportProtocol :=
  if value = "tcp".toList then .ok .tcp
  else if value = "udp".toList then .ok .udp
  else .error ⟨some line, "transport matcher must be `tcp` or `udp`"⟩

/-- The matcher of a rule line: its kind and, for all but `any`, its value. -/
def parseMatcher (fields : List Str) (line : Nat) : Except ConfigError Matcher :=
  let kind := fieldAt fields 2
  let value := fieldAt fields 3
  if kind = "any".toList ∧ fields.length = 3 then .ok .any
  else if kind = "domain-exact".toList ∧ fields.length = 4 then
    return .domainExact (← normalizeDomain value line)
  else if kind = "domain-suffix".toList ∧ fields.length = 4 then
    return .domainSuffix (← normalizeDomain value line)
  else if kind = "ip".toList ∧ fields.length = 4 then
    return .ip (← okOr (IpAddr.parse value) ⟨some line, "invalid IP address"⟩)
  else if kind = "cidr".toList ∧ fields.length = 4 then return .cidr (← parseCidr value line)
  else if kind = "port".toList ∧ fields.length = 4 then return .port (← parsePort value line)
  else if kind = "transport".toList ∧ fields.length = 4 then
    return .transport (← parseTransport value line)
  else
    .error ⟨some line,
      "supported matchers: any, domain-exact, domain-suffix, ip, cidr, port, transport"⟩

structure ParsedRule where
  rule : PolicyRule
  proxyRef : Option EndpointId

def parseRule (fields : List Str) (line : Nat) (id : RuleId) : Except ConfigError ParsedRule := do
  refuse (fields.length < 3)
    ⟨some line, "rule syntax is `rule <direct|reject|proxy:id> <matcher> [value]`"⟩
  let parsed ← parseAction (fieldAt fields 1) line
  let matcher ← parseMatcher fields line
  return ⟨⟨id, .userHard, matcher, parsed.action⟩, parsed.proxyRef⟩

def parseProxyAddress (value : Str) (line : Nat) : Except ConfigError ScopedAddr := do
  let address ← okOr (ScopedAddr.parse value)
    ⟨some line, "proxy endpoint address must be an IP socket address"⟩
  refuse (address.port = 0) ⟨some line, "proxy endpoint port must not be zero"⟩
  return address

/-- `TlsTransport::webpki`. -/
def webpki (address : ScopedAddr) (serverName : Str) : Except IoError (TlsTransport η) :=
  match platform.serverName serverName with
  | .ok name => .ok ⟨address, name⟩
  | .error e => .error ⟨.invalidInput, "invalid TLS server name: " ++ e⟩

def parseTlsTransportRaw (address serverName : Str) (line : Nat) :
    Except ConfigError (TlsTransport η) := do
  let address ← parseProxyAddress address line
  match webpki platform address serverName with
  | .ok transport => return transport
  | .error e => .error ⟨some line, e.message⟩

def hexDigit (value : UInt8) : UInt8 := if value < 10 then 48 + value else 87 + value

/-- Two hexadecimal digits for each byte of the digest. -/
def hexBytes (digest : Vector UInt8 28) : Bytes :=
  digest.toList.flatMap fun (byte : UInt8) => [hexDigit (byte >>> 4), hexDigit (byte &&& 0x0f)]

theorem length_hexBytes (digest : Vector UInt8 28) : (hexBytes digest).length = 56 := by
  simp [hexBytes, List.length_flatMap]

/-- `TrojanVerifier::new`. -/
def newVerifier (password : Str) (line : Nat) : Except ConfigError TrojanVerifier := do
  refuse (password = [] ∨ 1024 < byteLen password)
    ⟨some line, "Trojan password must contain 1..=1024 UTF-8 bytes"⟩
  return ⟨hexBytes (platform.sha224 (utf8 password)), length_hexBytes _⟩

/-! ### Files -/

def readBoundedAsset (path : Str) (maxBytes : Nat) (kind : String) (line : Nat) :
    Except ConfigError Str := do
  let length ← match platform.metadataLen path with
    | .ok length => .ok length
    | .error e =>
        .error ⟨some line, "cannot stat " ++ kind ++ " " ++ String.ofList path ++ ": " ++ e.message⟩
  refuse (maxBytes < length)
    ⟨some line, kind ++ " " ++ String.ofList path ++ " exceeds " ++
      String.ofList (decimal maxBytes) ++ " byte limit"⟩
  match platform.readToString path with
  | .ok text => return text
  | .error e =>
      .error ⟨some line, "cannot read " ++ kind ++ " " ++ String.ofList path ++ ": " ++ e.message⟩

/-- `Display` of a blocklist error. -/
def displayBlocklistError (e : BlocklistError) : String :=
  match e.line with
  | some line => "blocklist line " ++ String.ofList (decimal line) ++ ": " ++ e.message
  | none => e.message

def loadBlocklist (path : Str) (line : Nat) :
    Except ConfigError (DomainFilter × BlocklistStats) := do
  let text ← readBoundedAsset platform path maxBlocklistBytes "blocklist" line
  match compileBlocklist text with
  | .ok compiled => return (compiled.filter, compiled.stats)
  | .error e =>
      .error ⟨some line, "cannot compile blocklist " ++ String.ofList path ++ ": " ++
        displayBlocklistError e⟩

def loadHosts (path : Str) (line : Nat) : Except ConfigError HostsTable := do
  let text ← readBoundedAsset platform path maxHostsBytes "hosts" line
  match HostsTable.parse text with
  | .ok table => return table
  | .error e =>
      .error ⟨some line, "cannot compile hosts " ++ String.ofList path ++ ": " ++ e.message⟩

/-! ### Directives -/

/-- The accumulators of the loop over the lines. -/
structure ParseState (η : Type) where
  versionSeen : Bool := false
  defaultAction : Option PolicyAction := none
  allowPublicListen : Option Bool := none
  listeners : List ListenerConfig := []
  listenerAddresses : List (Bool × ScopedAddr) := []
  blocklists : List BlocklistSummary := []
  blocklistPaths : List (List Str) := []
  hosts : List HostsSummary := []
  hostsPaths : List (List Str) := []
  hostsTable : HostsTable := {}
  dnsResolverSummaries : List DnsResolverSummary := []
  dnsResolvers : List (ConfiguredResolver η) := []
  dnsResolverKeys : List Str := []
  endpointConfigs : List (EndpointConfig η) := []
  endpointIds : List EndpointId := []
  referencedEndpoints : List EndpointId := []
  rules : List PolicyRule := []
  nextRuleId : RuleId := 1

/-- A directive reads the fields of its line into the accumulators. -/
abbrev Directive (η : Type) : Type := List Str → Nat → ParseState η →
    Except ConfigError (ParseState η)

def versionDirective : Directive η := fun fields line s => do
  expectFields fields 2 line "version syntax is `version 1`"
  refuse (fieldAt fields 1 ≠ ['1']) ⟨some line, "expected exactly `version 1`"⟩
  refuse (s.versionSeen = true) ⟨some line, "duplicate version directive"⟩
  return { s with versionSeen := true }

def parseSwitch (value : Str) (line : Nat) : Except ConfigError Bool :=
  if value = "true".toList then .ok true
  else if value = "false".toList then .ok false
  else .error ⟨some line, "allow-public-listen must be `true` or `false`"⟩

def allowPublicListenDirective : Directive η := fun fields line s => do
  expectFields fields 2 line "allow-public-listen syntax is `allow-public-listen <true|false>`"
  refuse (s.allowPublicListen.isSome = true) ⟨some line, "duplicate allow-public-listen directive"⟩
  let allow ← parseSwitch (fieldAt fields 1) line
  return { s with allowPublicListen := some allow }

def parseListenerProtocol (value : Str) (line : Nat) : Except ConfigError ListenerProtocol :=
  if value = "socks5".toList then .ok .socks5
  else if value = "http".toList then .ok .httpConnect
  else if value = "tproxy-tcp".toList then .ok .tproxyTcp
  else if value = "tproxy-udp".toList then .ok .tproxyUdp
  else .error ⟨some line,
    "listener protocol must be `socks5`, `http`, `tproxy-tcp`, or `tproxy-udp`"⟩

def listenDirective : Directive η := fun fields line s => do
  expectFields fields 3 line
    "listen syntax is `listen <socks5|http|tproxy-tcp|tproxy-udp> <ip:port>`"
  refuse (maxListeners ≤ s.listeners.length) ⟨some line, "listener count exceeds 16"⟩
  let protocol ← parseListenerProtocol (fieldAt fields 1) line
  let address ← okOr (ScopedAddr.parse (fieldAt fields 2)) ⟨some line, "invalid listener address"⟩
  refuse (address.port = 0) ⟨some line, "listener port must not be zero"⟩
  refuse ((protocol.isUdp, address) ∈ s.listenerAddresses)
    ⟨some line, "two listeners cannot bind the same transport/socket address"⟩
  return { s with
    listenerAddresses := s.listenerAddresses ++ [(protocol.isUdp, address)]
    listeners := s.listeners ++ [⟨protocol, address⟩] }

/-- `DotResolver::webpki`. -/
def dotResolver (address : ScopedAddr) (serverName : Str) (line : Nat) :
    Except ConfigError (TlsTransport η) :=
  match webpki platform address serverName with
  | .ok transport => .ok transport
  | .error e => .error ⟨some line, "invalid DNS-over-TLS transport: " ++ e.message⟩

/-- The key under which a DNS-over-TLS resolver is known. -/
def dotKey (address : ScopedAddr) (serverName : Str) : Str :=
  "dot|".toList ++ address.display ++ '|' :: serverName

def systemResolverDirective (line : Nat) (s : ParseState η) :
    Except ConfigError (ParseState η) := do
  refuse ("system".toList ∈ s.dnsResolverKeys) ⟨some line, "duplicate system DNS resolver"⟩
  return { s with
    dnsResolverKeys := s.dnsResolverKeys ++ ["system".toList]
    dnsResolverSummaries := s.dnsResolverSummaries ++ [.system]
    dnsResolvers := s.dnsResolvers ++ [.system] }

def dotResolverDirective (address serverName : Str) (line : Nat) (s : ParseState η) :
    Except ConfigError (ParseState η) := do
  let address ← okOr (ScopedAddr.parse address)
    ⟨some line, "DoT resolver bootstrap address must be an IP socket address"⟩
  refuse (address.port = 0) ⟨some line, "DoT resolver port must not be zero"⟩
  let serverName := toAsciiLowercase serverName
  refuse (dotKey address serverName ∈ s.dnsResolverKeys)
    ⟨some line, "duplicate DNS-over-TLS resolver"⟩
  let transport ← dotResolver platform address serverName line
  return { s with
    dnsResolverKeys := s.dnsResolverKeys ++ [dotKey address serverName]
    dnsResolverSummaries := s.dnsResolverSummaries ++ [.dot address serverName]
    dnsResolvers := s.dnsResolvers ++ [.dot transport] }

def resolverDirective : Directive η := fun fields line s => do
  refuse (maxDnsResolvers ≤ s.dnsResolvers.length) ⟨some line, "DNS resolver count exceeds 8"⟩
  let syntaxError : ConfigError :=
    ⟨some line, "resolver syntax is `resolver system` or `resolver dot <ip:port> <server-name>`"⟩
  match fields with
  | [_, kind] =>
      if kind = "system".toList then systemResolverDirective line s else .error syntaxError
  | [_, kind, address, serverName] =>
      if kind = "dot".toList then dotResolverDirective platform address serverName line s
        else .error syntaxError
  | _ => .error syntaxError

/-- The protocols that run over any carrier. -/
def plainProtocol (value : Str) : Option OutboundProtocol :=
  if value = "socks5".toList then some .socks5
  else if value = "http".toList then some .httpConnect
  else none

/-- The error for an endpoint line of another form. -/
def endpointSyntax (protocol : Str) (line : Nat) : ConfigError :=
  if protocol = "trojan".toList then
    ⟨some line,
      "Trojan endpoint syntax is `endpoint <id> trojan tls <ip:port> <server-name> <password>`; plain TCP is forbidden"⟩
  else
    ⟨some line,
      "endpoint syntax supports SOCKS5/HTTP over implicit TCP, explicit TCP or TLS, and Trojan over TLS only"⟩

/-- The endpoint that the fields behind the id describe. -/
def parseEndpoint (id : EndpointId) (fields : List Str) (line : Nat) :
    Except ConfigError (EndpointConfig η) :=
  match fields with
  | [_, _, protocol, address] =>
      match plainProtocol protocol with
      | some plain => return ⟨id, plain, none, .tcp (← parseProxyAddress address line)⟩
      | none => .error (endpointSyntax protocol line)
  | [_, _, protocol, carrier, address] =>
      match plainProtocol protocol, decide (carrier = "tcp".toList) with
      | some plain, true => return ⟨id, plain, none, .tcp (← parseProxyAddress address line)⟩
      | _, _ => .error (endpointSyntax protocol line)
  | [_, _, protocol, carrier, address, serverName] =>
      match plainProtocol protocol, decide (carrier = "tls".toList) with
      | some plain, true =>
          return ⟨id, plain, none, .tls (← parseTlsTransportRaw platform address serverName line)⟩
      | _, _ => .error (endpointSyntax protocol line)
  | [_, _, protocol, carrier, address, serverName, password] =>
      if protocol = "trojan".toList ∧ carrier = "tls".toList then do
        let verifier ← newVerifier platform password line
        let tls ← parseTlsTransportRaw platform address serverName line
        return ⟨id, .trojan verifier, some ⟨verifier, tls⟩, .tls tls⟩
      else .error (endpointSyntax protocol line)
  | fields => .error (endpointSyntax (fieldAt fields 2) line)

def endpointDirective : Directive η := fun fields line s => do
  refuse (maxProxyEndpoints ≤ s.endpointConfigs.length)
    ⟨some line, "proxy endpoint count exceeds 64"⟩
  let id ← okOr fields[1]?
    ⟨some line, "endpoint requires an id, protocol and transport configuration"⟩
  let id ← EndpointId.new id line
  refuse (id ∈ s.endpointIds) ⟨some line, "duplicate proxy endpoint id"⟩
  let config ← parseEndpoint platform id fields line
  return { s with
    endpointIds := s.endpointIds ++ [id]
    endpointConfigs := s.endpointConfigs ++ [config] }

def defaultDirective : Directive η := fun fields line s => do
  expectFields fields 2 line "default syntax is `default <direct|reject|proxy:id>`"
  refuse (s.defaultAction.isSome = true) ⟨some line, "duplicate default directive"⟩
  let parsed ← parseAction (fieldAt fields 1) line
  return { s with
    referencedEndpoints := s.referencedEndpoints ++ parsed.proxyRef.toList
    defaultAction := some parsed.action }

def blocklistDirective (root : Str) : Directive η := fun fields line s => do
  expectFields fields 2 line
    "blocklist syntax is `blocklist <path>`; paths with whitespace are not supported yet"
  refuse (maxBlocklists ≤ s.blocklists.length) ⟨some line, "blocklist count exceeds 8"⟩
  ensureRuleCapacity s.rules.length line
  let source := resolveAssetPath root (fieldAt fields 1)
  refuse (pathComponents source ∈ s.blocklistPaths) ⟨some line, "duplicate blocklist path"⟩
  let (filter, stats) ← loadBlocklist platform source line
  return { s with
    blocklistPaths := s.blocklistPaths ++ [pathComponents source]
    rules := s.rules ++ [⟨s.nextRuleId, .userHard, .domainFilter filter, .reject .policy⟩]
    nextRuleId := s.nextRuleId + 1
    blocklists := s.blocklists ++ [⟨source, stats⟩] }

def hostsDirective (root : Str) : Directive η := fun fields line s => do
  expectFields fields 2 line
    "hosts syntax is `hosts <path>`; paths with whitespace are not supported yet"
  refuse (maxHostsFiles ≤ s.hosts.length) ⟨some line, "hosts file count exceeds 4"⟩
  let source := resolveAssetPath root (fieldAt fields 1)
  refuse (pathComponents source ∈ s.hostsPaths) ⟨some line, "duplicate hosts path"⟩
  let table ← loadHosts platform source line
  return { s with
    hostsPaths := s.hostsPaths ++ [pathComponents source]
    hostsTable := s.hostsTable.merge table
    hosts := s.hosts ++ [⟨source, table.len⟩] }

def ruleDirective : Directive η := fun fields line s => do
  ensureRuleCapacity s.rules.length line
  let parsed ← parseRule fields line s.nextRuleId
  return { s with
    referencedEndpoints := s.referencedEndpoints ++ parsed.proxyRef.toList
    rules := s.rules ++ [parsed.rule]
    nextRuleId := s.nextRuleId + 1 }

/-! ### The whole text -/

/-- The words that begin a directive. -/
inductive Keyword where
  | version | allowPublicListen | listen | resolver | endpoint | default | blocklist | hosts | rule
  deriving DecidableEq

def Keyword.text : Keyword → Str
  | .version => "version".toList
  | .allowPublicListen => "allow-public-listen".toList
  | .listen => "listen".toList
  | .resolver => "resolver".toList
  | .endpoint => "endpoint".toList
  | .default => "default".toList
  | .blocklist => "blocklist".toList
  | .hosts => "hosts".toList
  | .rule => "rule".toList

def Keyword.all : List Keyword :=
  [.version, .allowPublicListen, .listen, .resolver, .endpoint, .default, .blocklist, .hosts, .rule]

/-- The keyword of a line with the given fields. -/
def keyword (fields : List Str) : Option Keyword :=
  Keyword.all.find? fun k => fields.head? == some k.text

def Keyword.directive (root : Str) : Keyword → Directive η
  | .version => versionDirective
  | .allowPublicListen => allowPublicListenDirective
  | .listen => listenDirective
  | .resolver => resolverDirective platform
  | .endpoint => endpointDirective platform
  | .default => defaultDirective
  | .blocklist => blocklistDirective platform root
  | .hosts => hostsDirective platform root
  | .rule => ruleDirective

/-- The fields of a line, without its comment. -/
def lineFields (raw : Str) : List Str := splitWhitespace (trim (raw.takeWhile (· != '#')))

def parseLine (root raw : Str) (line : Nat) (s : ParseState η) :
    Except ConfigError (ParseState η) :=
  let fields := lineFields raw
  match fields.head? with
  | none => .ok s
  | some word =>
      match keyword fields with
      | some k => k.directive platform root fields line s
      | none => .error ⟨some line, "unknown directive `" ++ String.ofList word ++ "`"⟩

/-- The loop over the lines; the number of the first is given. -/
def parseLines (root : Str) : List Str → Nat → ParseState η → Except ConfigError (ParseState η)
  | [], _, s => .ok s
  | raw :: raws, line, s => do
      let s ← parseLine platform root raw line s
      parseLines root raws (line + 1) s

/-- The engine and the summary of its resolvers. -/
def buildDns (s : ParseState η) :
    Except ConfigError (DnsEngine (ConfiguredResolver η) × List DnsResolverSummary) :=
  if s.dnsResolvers.isEmpty then .ok (.system .system s.hostsTable, [.system])
  else
    match DnsEngine.withResolvers s.hostsTable s.dnsResolvers defaultCacheCapacity
        defaultCacheTtl with
    | .ok dns => .ok (dns, s.dnsResolverSummaries)
    | .error e => .error ⟨none, e.message⟩

def buildOutbounds (s : ParseState η) : Except ConfigError (Registry η) :=
  match Registry.new s.endpointConfigs with
  | .ok outbounds => .ok outbounds
  | .error e => .error ⟨none, e.message⟩

/-- The checks of the text as a whole. -/
def finish (s : ParseState η) : Except ConfigError (CompiledConfig η) := do
  refuse (s.versionSeen = false) ⟨none, "missing `version 1` directive"⟩
  refuse (s.listeners = []) ⟨none, "at least one listener is required"⟩
  refuse (s.allowPublicListen.getD false = false ∧
    s.listeners.any (fun l => !l.address.ip.isLoopback) = true)
    ⟨none,
      "non-loopback listeners require explicit `allow-public-listen true` because alpha inbounds have no authentication"⟩
  let defaultAction ← okOr s.defaultAction ⟨none, "missing default action"⟩
  let outbounds ← buildOutbounds s
  match s.referencedEndpoints.find? fun id => !outbounds.contains id with
  | some id =>
      .error ⟨none, "policy references undefined proxy endpoint `" ++ String.ofList id.value ++ "`"⟩
  | none => do
      let (dns, dnsResolvers) ← buildDns s
      return {
        listeners := s.listeners
        blocklists := s.blocklists
        hosts := s.hosts
        dnsResolvers
        runtime := ⟨.new s.rules defaultAction⟩
        dns
        outbounds }

def parseConfigAt (text root : Str) : Except ConfigError (CompiledConfig η) := do
  refuse (maxConfigBytes < byteLen text) ⟨none, "configuration exceeds 1048576 byte limit"⟩
  let s ← parseLines platform root (lines text) 1 {}
  finish s

def parseConfig (text : Str) : Except ConfigError (CompiledConfig η) :=
  parseConfigAt platform text ['.']

end Commeatus.Daemon
