import Commeatus.Daemon.Inbound
import Commeatus.Lib.Fallible

/-!
Compiled sets and native rules.

A name can be matched by a rule of the configuration or by an entry of a
compiled set. Exact entries judge every name of a client alike. Suffix entries
do so for ASCII names: a set matches no other name, while the native rule looks
only at how the name ends.
-/

namespace Commeatus.Daemon

open Commeatus.Lib Commeatus.Core

variable {value s d : Str} {line : Nat}

/-- A value that the set compiler accepts, as it stands in the set. -/
theorem normalizeSetDomain_eq_ok (compiled : normalizeSetDomain value = .ok s) :
    s = toAsciiLowercase (trimMatches '.' value) ∧ s ≠ [] ∧ isAscii s = true := by
  simp only [normalizeSetDomain] at compiled
  split at compiled
  · cases compiled
  · rename_i valid
    cases compiled
    simp only [Bool.or_eq_true, List.isEmpty_iff, Bool.not_eq_true', not_or,
      Bool.not_eq_false] at valid
    exact ⟨rfl, valid.1.1.1, valid.1.2⟩

theorem normalizeDomain_eq_ok (native : normalizeDomain value line = .ok s) :
    s = toAsciiLowercase (trimMatches '.' value) := by
  simp only [normalizeDomain] at native
  split at native
  · cases native
  · cases native
    rfl

/-- What a set of one exact entry or one suffix holds. -/
theorem compile_one {set : DomainSet} :
    (DomainSet.compile [value] [] = .ok set → ∃ s, normalizeSetDomain value = .ok s ∧
      set.exact = [s] ∧ set.suffixes = []) ∧
    (DomainSet.compile [] [value] = .ok set → ∃ s, normalizeSetDomain value = .ok s ∧
      set.exact = [] ∧ set.suffixes = [s]) := by
  constructor
  · intro compiled
    obtain ⟨exact, normal, compiled⟩ := bind_eq_ok_iff.mp compiled
    obtain ⟨s, one, made⟩ := bind_eq_ok_iff.mp normal
    cases made
    cases compiled
    exact ⟨s, one, rfl, rfl⟩
  · intro compiled
    obtain ⟨exact, none, compiled⟩ := bind_eq_ok_iff.mp compiled
    obtain ⟨suffixes, normal, compiled⟩ := bind_eq_ok_iff.mp compiled
    obtain ⟨s, one, made⟩ := bind_eq_ok_iff.mp normal
    cases none
    cases made
    cases compiled
    exact ⟨s, one, rfl, rfl⟩

/-- The set of no entries. -/
def noDomains : DomainSet := ⟨[], [], .nil, .nil⟩

theorem matchesDomain_noDomains (domain : Str) : noDomains.matchesDomain domain = false := by
  unfold DomainSet.matchesDomain
  dsimp only
  split
  · rfl
  · have absent (candidate : Str) : searched [] candidate = false := rfl
    simp [noDomains, absent]

/-- What a set of one entry matches of the names of clients. -/
theorem isBlocked_one {set : DomainSet} (name : InboundName d) :
    DomainFilter.isBlocked ⟨set, noDomains⟩ d = true ↔
      isAscii d = true ∧ (d ∈ set.exact ∨ ∃ suffix ∈ set.suffixes, LabelSuffix suffix d) := by
  have undotted : d.getLast? ≠ some '.' := name.noTrailingDot ▸ trimEndMatches_getLast?
  rw [DomainFilter.isBlocked, matchesDomain_noDomains, Bool.not_false, Bool.and_true]
  by_cases ascii : isAscii d = true
  · rw [DomainSet.matchesDomain_iff name.nonempty name.short ascii undotted]
    exact ⟨fun found => ⟨ascii, found⟩, fun found => found.2⟩
  · have refused : set.matchesDomain d = false := by
      simp [DomainSet.matchesDomain, name.noTrailingDot, ascii]
    simp [refused, ascii]

/-- For a name of a client, a compiled suffix judges as the native suffix rule does, but for names
that are not ASCII, which no set matches; and a compiled exact entry judges as the native exact rule
does. -/
theorem sets_and_native_rules_agree {suffixSet exactSet empty : DomainSet} (name : InboundName d)
    (native : normalizeDomain value line = .ok s)
    (suffix : DomainSet.compile [] [value] = .ok suffixSet)
    (exact : DomainSet.compile [value] [] = .ok exactSet)
    (nothing : DomainSet.compile [] [] = .ok empty)
    (flow : FlowContext) :
    (Matcher.domainFilter ⟨suffixSet, empty⟩).matchesFlow (flow.withHost (.domain d)) =
      ((Matcher.domainSuffix s).matchesFlow (flow.withHost (.domain d)) && isAscii d) ∧
    (Matcher.domainFilter ⟨exactSet, empty⟩).matchesFlow (flow.withHost (.domain d)) =
      (Matcher.domainExact s).matchesFlow (flow.withHost (.domain d)) := by
  cases nothing
  obtain ⟨s', normal, exacts, suffixes⟩ := compile_one.1 exact
  obtain ⟨s'', normal', exacts', suffixes'⟩ := compile_one.2 suffix
  cases normal.symm.trans normal'
  obtain ⟨same, ne, ascii⟩ := normalizeSetDomain_eq_ok normal
  have one : s = s' := (normalizeDomain_eq_ok native).trans same.symm
  subst one
  have lower : toAsciiLowercase s = s := by rw [same, toAsciiLowercase_idem]
  have trimmed : trimMatches '.' s = s := by rw [same, trimMatches_lowercase (by decide)]
  have wanted : domainMatchesSuffix d s = true ↔ LabelSuffix s d :=
    domainMatchesSuffix_iff name.lowercase name.noTrailingDot lower trimmed ne ascii
  constructor
  · change DomainFilter.isBlocked ⟨suffixSet, noDomains⟩ d = (domainMatchesSuffix d s && isAscii d)
    rw [Bool.eq_iff_iff, isBlocked_one name, exacts', suffixes', Bool.and_eq_true, wanted]
    simp [and_comm]
  · change DomainFilter.isBlocked ⟨exactSet, noDomains⟩ d = eqIgnoreAsciiCase d s
    rw [Bool.eq_iff_iff, isBlocked_one name, exacts, suffixes, eqIgnoreAsciiCase,
      name.lowercase, lower, beq_iff_eq]
    constructor
    · rintro ⟨-, member | ⟨suffix, no, -⟩⟩
      · exact List.mem_singleton.mp member
      · cases no
    · rintro rfl
      exact ⟨ascii, .inl (List.mem_singleton_self _)⟩

/-- A client can send the name, the suffix is accepted on both ways, and the native rule alone
matches. -/
theorem set_misses_non_ascii_name : ∃ (suffixSet : DomainSet) (t : Target) (flow : FlowContext),
    InboundInput.accepts (.socks5Packet ([0, 0, 0, 3, 14] ++ utf8 "é.ads.example".toList ++
      [0, 80])) = some t ∧
      t.host = .domain "é.ads.example".toList ∧ normalizeDomain "ads.example".toList 1 =
        .ok "ads.example".toList ∧
      DomainSet.compile [] ["ads.example".toList] = .ok suffixSet ∧ DomainSet.compile []
      [] = .ok noDomains ∧
      (Matcher.domainSuffix "ads.example".toList).matchesFlow (flow.withHost t.host) = true ∧
      (Matcher.domainFilter ⟨suffixSet, noDomains⟩).matchesFlow (flow.withHost t.host) = false := by
  refine ⟨⟨[], ["ads.example".toList], .nil, List.pairwise_singleton _ _⟩,
    ⟨.domain "é.ads.example".toList, 80, by decide⟩,
    ⟨1, {}, ⟨.domain [], 80⟩, .tcp, {}⟩, ?_⟩
  refine ⟨by decide +kernel, rfl, by decide +kernel, rfl, rfl, by decide +kernel, by decide +kernel⟩

theorem sets_and_native_rules_agree_example : ∃ suffixSet,
    DomainSet.compile [] ["Ads.Example".toList] = .ok suffixSet ∧ ∀ flow : FlowContext,
      (Matcher.domainFilter ⟨suffixSet, noDomains⟩).matchesFlow
        (flow.withHost (.domain "x.ads.example".toList)) =
        (Matcher.domainSuffix "ads.example".toList).matchesFlow
          (flow.withHost (.domain "x.ads.example".toList)) := by
  have name : InboundName "x.ads.example".toList := ⟨by decide, by decide, by decide, by decide⟩
  have native : normalizeDomain "Ads.Example".toList 1 = .ok "ads.example".toList := by
    decide +kernel
  have compiled : DomainSet.compile [] ["Ads.Example".toList] =
      .ok ⟨[], ["ads.example".toList], .nil, List.pairwise_singleton _ _⟩ := rfl
  refine ⟨_, compiled, fun flow => ?_⟩
  have agree := (sets_and_native_rules_agree name native compiled
    (show DomainSet.compile ["Ads.Example".toList] [] = .ok _ from rfl) rfl flow).1
  rw [show isAscii "x.ads.example".toList = true by decide, Bool.and_true] at agree
  exact agree

end Commeatus.Daemon
