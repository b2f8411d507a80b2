import Commeatus.Core.Policy

/-!
Rule values as the configuration parser leaves them (`daemon/src/config.rs`).
-/

namespace Commeatus.Daemon

open Commeatus.Lib Commeatus.Core

structure ConfigError where
  line : Option Nat
  message : String
  deriving DecidableEq

/-- `normalize_domain` of the configuration parser: unlike the set compiler it
puts no condition on the labels. -/
def normalizeDomain (value : Str) (line : Nat) : Except ConfigError Str :=
  let normalized := toAsciiLowercase (trimMatches '.' value)
  if normalized.isEmpty || decide (253 < byteLen normalized) then
    .error ⟨some line, "invalid domain matcher"⟩
  else .ok normalized

/-- A set that `DomainSet::compile` made. -/
def Compiled (set : DomainSet) : Prop :=
  ∃ exact suffixes, DomainSet.compile exact suffixes = .ok set

/-- A matcher whose names went through the configuration parser or the set
compiler. -/
inductive Normalised : Matcher → Prop where
  | any : Normalised .any
  | uid (uid : UInt32) : Normalised (.uid uid)
  | package (name : Str) : Normalised (.package name)
  | domainExact {value name : Str} {line : Nat} :
      normalizeDomain value line = .ok name → Normalised (.domainExact name)
  | domainSuffix {value name : Str} {line : Nat} :
      normalizeDomain value line = .ok name → Normalised (.domainSuffix name)
  | domainFilter {filter : DomainFilter} :
      Compiled filter.blocked → Compiled filter.allowed → Normalised (.domainFilter filter)
  | ip (address : IpAddr) : Normalised (.ip address)
  | cidr {value : Str} {cidr : IpCidr} :
      IpCidr.fromStr value = .ok cidr → Normalised (.cidr cidr)
  | port {port : UInt16} : port ≠ 0 → Normalised (.port port)
  | transport (protocol : TransportProtocol) : Normalised (.transport protocol)
  | network (kind : NetworkKind) : Normalised (.network kind)
  | all {matchers : List Matcher} :
      (∀ m ∈ matchers, Normalised m) → Normalised (.all matchers)
  | anyOf {matchers : List Matcher} :
      (∀ m ∈ matchers, Normalised m) → Normalised (.anyOf matchers)
  | not {matcher : Matcher} : Normalised matcher → Normalised (.not matcher)

/-- A short lowercase name without outer dots is a rule value as it stands. -/
theorem normalizeDomain_self {name : Str} (ne : name ≠ []) (short : byteLen name ≤ 253)
    (trimmed : toAsciiLowercase (trimMatches '.' name) = name) (line : Nat) :
    normalizeDomain name line = .ok name := by
  simp [normalizeDomain, trimmed, ne, short]

end Commeatus.Daemon
