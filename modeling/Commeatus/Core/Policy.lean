import Commeatus.Core.Flow
import Commeatus.Core.Cidr
import Commeatus.Core.DomainSet

/-!
The policy engine (`core/src/policy.rs`, `core/src/runtime.rs`): typed match
expressions, precedence by tier, first match within a tier, and the plan that
the executors consume.
-/

namespace Commeatus.Core

open Commeatus.Lib

/-- Policy authority, from strongest to weakest. -/
inductive PolicyTier where
  | userHard | safety | compatibility | adaptive | default
  deriving DecidableEq, Repr

def PolicyTier.rank : PolicyTier → Nat
  | .userHard => 0
  | .safety => 1
  | .compatibility => 2
  | .adaptive => 3
  | .default => 4

inductive Matcher where
  | any
  | uid (uid : UInt32)
  | package (name : Str)
  | domainExact (expected : Str)
  | domainSuffix (suffix : Str)
  | domainFilter (filter : DomainFilter)
  | ip (expected : IpAddr)
  | cidr (cidr : IpCidr)
  | port (port : UInt16)
  | transport (protocol : TransportProtocol)
  | network (kind : NetworkKind)
  | all (matchers : List Matcher)
  | anyOf (matchers : List Matcher)
  | not (matcher : Matcher)

/-- `str::is_char_boundary` on the encoded bytes. -/
def isCharBoundary (bytes : Bytes) (index : Nat) : Bool :=
  match bytes[index]? with
  | some b => decide (b.toNat < 128 ∨ 192 ≤ b.toNat)
  | none => index == bytes.length

/-- ASCII lowercasing of one octet. -/
def lowerByte (b : UInt8) : UInt8 := if 65 ≤ b ∧ b ≤ 90 then b + 32 else b

/-- `domain_matches_suffix`: equal up to case, or the suffix preceded by a dot. The
offsets are byte offsets. -/
def domainMatchesSuffix (domain suffix : Str) : Bool :=
  let domain := trimEndMatches '.' domain
  let suffix := trimMatches '.' suffix
  if suffix.isEmpty then false
  else if eqIgnoreAsciiCase domain suffix then true
  else
    let bytes := utf8 domain
    let requiredLen := byteLen suffix + 1
    if bytes.length < requiredLen then false
    else
      let prefixLen := bytes.length - requiredLen
      isCharBoundary bytes prefixLen && bytes[prefixLen]? == some 0x2e &&
        (bytes.drop (prefixLen + 1)).map lowerByte == (utf8 suffix).map lowerByte

/-- The octets of a lowercase text are lowercase. -/
theorem map_lowerByte_utf8 {s : Str} (lower : toAsciiLowercase s = s) :
    (utf8 s).map lowerByte = utf8 s := by
  have fixed : ∀ c ∈ s, c.toLower = c := List.map_inj_left.mp (lower.trans (List.map_id s).symm)
  refine (List.map_congr_left fun b member => ?_).trans (List.map_id _)
  unfold lowerByte
  split
  · rename_i upper
    have low : 65 ≤ b.toNat := upper.1
    have high : b.toNat ≤ 90 := upper.2
    obtain ⟨c, among, value⟩ := mem_of_mem_utf8 member (by omega)
    have capital : c.isUpper = true := isUpper_iff.mpr (by omega)
    have shifted := toNat_toLower capital
    rw [fixed c among] at shifted
    omega
  · rfl

/-- On normal forms the suffix test is the one on labels: the octets of an ASCII suffix are found
where its characters are. -/
theorem domainMatchesSuffix_iff {domain suffix : Str}
    (lowerDomain : toAsciiLowercase domain = domain)
    (trimmedDomain : trimEndMatches '.' domain = domain)
    (lowerSuffix : toAsciiLowercase suffix = suffix)
    (trimmedSuffix : trimMatches '.' suffix = suffix) (ne : suffix ≠ [])
    (ascii : isAscii suffix = true) :
    domainMatchesSuffix domain suffix = true ↔ LabelSuffix suffix domain := by
  have dotted : utf8 ('.' :: suffix) = 0x2e :: utf8 suffix := rfl
  have equal : eqIgnoreAsciiCase domain suffix = true ↔ domain = suffix := by
    rw [eqIgnoreAsciiCase, lowerDomain, lowerSuffix, beq_iff_eq]
  unfold domainMatchesSuffix
  dsimp only
  rw [trimmedDomain, trimmedSuffix, if_neg (by simpa using ne), LabelSuffix]
  by_cases same : domain = suffix
  · rw [if_pos (equal.mpr same)]
    exact ⟨fun _ => .inl same, fun _ => rfl⟩
  rw [if_neg (mt equal.mp same)]
  constructor
  · intro found
    split at found
    · cases found
    rename_i long
    simp only [Bool.and_eq_true, beq_iff_eq, map_lowerByte_utf8 lowerSuffix] at found
    obtain ⟨⟨-, dot⟩, tail⟩ := found
    rw [List.map_drop, map_lowerByte_utf8 lowerDomain] at tail
    obtain ⟨inside, here⟩ := List.getElem?_eq_some_iff.mp dot
    have ends : utf8 domain = (utf8 domain).take ((utf8 domain).length - (byteLen suffix + 1)) ++
        utf8 ('.' :: suffix) := by
      rw [dotted, ← tail, ← here, ← List.drop_eq_getElem_cons, List.take_append_drop]
    obtain ⟨front, split, -⟩ :=
      append_of_utf8_append (isAscii_iff.mp (by simpa [isAscii] using ascii)) ends
    exact .inr ⟨front, split⟩
  · rintro (whole | ⟨front, rfl⟩)
    · exact absurd whole same
    · have size : (utf8 (front ++ '.' :: suffix)).length - (byteLen suffix + 1) =
          (utf8 front).length := by
        rw [utf8_append, dotted, List.length_append, List.length_cons, byteLen]
        omega
      have tail : (utf8 (front ++ '.' :: suffix)).drop ((utf8 front).length + 1) = utf8 suffix := by
        rw [utf8_append, dotted]
        simp
      have dot : (utf8 (front ++ '.' :: suffix))[(utf8 front).length]? = some 0x2e := by
        rw [utf8_append, dotted]
        simp
      have boundary :
          isCharBoundary (utf8 (front ++ '.' :: suffix)) (utf8 front).length = true := by
        rw [isCharBoundary, dot]
        rfl
      rw [if_neg
        (by rw [utf8_append, dotted, List.length_append, List.length_cons, byteLen]; omega),
          size, tail, dot,
        boundary]
      simp

mutual

/-- `Matcher::matches`. -/
def Matcher.matchesFlow : Matcher → FlowContext → Bool
  | .any, _ => true
  | .uid uid, flow => flow.source.uid == some uid
  | .package name, flow => flow.source.package == some name
  | .domainExact expected, flow =>
      match flow.destination.host with
      | .domain domain => eqIgnoreAsciiCase domain expected
      | .ip _ => false
  | .domainSuffix suffix, flow =>
      match flow.destination.host with
      | .domain domain => domainMatchesSuffix domain suffix
      | .ip _ => false
  | .domainFilter filter, flow =>
      match flow.destination.host with
      | .domain domain => filter.isBlocked domain
      | .ip _ => false
  | .ip expected, flow =>
      match flow.destination.host with
      | .ip actual => actual == expected
      | .domain _ => false
  | .cidr cidr, flow =>
      match flow.destination.host with
      | .ip actual => cidr.contains actual
      | .domain _ => false
  | .port port, flow => flow.destination.port == port
  | .transport protocol, flow => flow.transport == protocol
  | .network kind, flow => flow.network.kind == kind
  | .all matchers, flow => matchesEvery matchers flow
  | .anyOf matchers, flow => matchesSome matchers flow
  | .not matcher, flow => !matcher.matchesFlow flow

/-- `matchers.iter().all(..)`. -/
def matchesEvery : List Matcher → FlowContext → Bool
  | [], _ => true
  | m :: ms, flow => m.matchesFlow flow && matchesEvery ms flow

/-- `matchers.iter().any(..)`. -/
def matchesSome : List Matcher → FlowContext → Bool
  | [], _ => false
  | m :: ms, flow => m.matchesFlow flow || matchesSome ms flow

end

inductive PolicyAction where
  | route (endpoint : Endpoint)
  | reject (reason : RejectReason)
  deriving DecidableEq

structure PolicyRule where
  id : RuleId
  tier : PolicyTier
  matcher : Matcher
  action : PolicyAction

structure PolicyDecision where
  ruleId : Option RuleId
  tier : PolicyTier
  action : PolicyAction
  deriving DecidableEq

structure PolicyEngine where
  rules : List PolicyRule
  defaultAction : PolicyAction

/-- `PolicyEngine::new`: a stable sort by tier. -/
def PolicyEngine.new (rules : List PolicyRule) (defaultAction : PolicyAction) : PolicyEngine :=
  ⟨rules.insertionSort fun x y => x.tier.rank ≤ y.tier.rank, defaultAction⟩

def PolicyEngine.decide (engine : PolicyEngine) (flow : FlowContext) : PolicyDecision :=
  match engine.rules.find? fun rule => rule.matcher.matchesFlow flow with
  | some rule => ⟨some rule.id, rule.tier, rule.action⟩
  | none => ⟨none, .default, engine.defaultAction⟩

structure ExecutionPlan where
  flowId : FlowId
  action : ExecutionAction
  matchedRule : Option RuleId
  tier : PolicyTier
  deriving DecidableEq

structure Runtime where
  policy : PolicyEngine

def Runtime.plan (runtime : Runtime) (flow : FlowContext) : ExecutionPlan :=
  let decision := runtime.policy.decide flow
  let action := match decision.action with
    | .route endpoint => .route endpoint
    | .reject reason => .reject reason
  ⟨flow.id, action, decision.ruleId, decision.tier⟩

/-! ### The flow id is opaque to policy -/

mutual

theorem Matcher.matchesFlow_id (m : Matcher) (flow : FlowContext) (id : FlowId) :
    m.matchesFlow { flow with id } = m.matchesFlow flow := by
  cases m with
  | all ms => simpa [Matcher.matchesFlow] using matchesEvery_id ms flow id
  | anyOf ms => simpa [Matcher.matchesFlow] using matchesSome_id ms flow id
  | not m => simpa [Matcher.matchesFlow] using m.matchesFlow_id flow id
  | _ => simp [Matcher.matchesFlow]

theorem matchesEvery_id (ms : List Matcher) (flow : FlowContext) (id : FlowId) :
    matchesEvery ms { flow with id } = matchesEvery ms flow := by
  cases ms with
  | nil => simp [matchesEvery]
  | cons m ms => simp [matchesEvery, m.matchesFlow_id flow id, matchesEvery_id ms flow id]

theorem matchesSome_id (ms : List Matcher) (flow : FlowContext) (id : FlowId) :
    matchesSome ms { flow with id } = matchesSome ms flow := by
  cases ms with
  | nil => simp [matchesSome]
  | cons m ms => simp [matchesSome, m.matchesFlow_id flow id, matchesSome_id ms flow id]

end

/-- The action planned for a flow does not depend on its id. -/
theorem Runtime.plan_action_id (runtime : Runtime) (flow : FlowContext) (id : FlowId) :
    (runtime.plan { flow with id }).action = (runtime.plan flow).action := by
  have same : (fun rule : PolicyRule => rule.matcher.matchesFlow { flow with id }) =
      fun rule => rule.matcher.matchesFlow flow :=
    funext fun rule => rule.matcher.matchesFlow_id flow id
  simp only [plan, PolicyEngine.decide, same]

/-- A flow is routed only where a rule or the default action routes. -/
theorem Runtime.route_of_plan {runtime : Runtime} {flow : FlowContext} {endpoint : Endpoint}
    (routed : (runtime.plan flow).action = .route endpoint) :
    runtime.policy.defaultAction = .route endpoint ∨
      ∃ rule ∈ runtime.policy.rules, rule.action = .route endpoint := by
  have decided : (runtime.policy.decide flow).action = .route endpoint := by
    simp only [plan] at routed
    split at routed
    · rename_i chosen
      cases routed
      exact chosen
    · cases routed
  unfold PolicyEngine.decide at decided
  split at decided
  · rename_i rule found
    exact .inr ⟨rule, List.mem_of_find?_eq_some found, decided⟩
  · exact .inl decided

end Commeatus.Core
