import Commeatus.Core.Policy
import Commeatus.Lib.Precedence

/-!
The order in which rules decide (`core/src/policy.rs`): the strongest tier
first, and within a tier the rule that comes first in the source.
-/

namespace Commeatus.Core

open Commeatus.Lib

def PolicyRule.rank (rule : PolicyRule) : Nat := rule.tier.rank

theorem PolicyTier.rank_injective : Function.Injective PolicyTier.rank := by
  intro x y same
  cases x <;> cases y <;> first | rfl | cases same

/-- The rules of a tier, in their order. -/
def ofTier (tier : PolicyTier) (rules : List PolicyRule) : List PolicyRule :=
  rules.filter fun rule => rule.tier = tier

theorem ofRank_rank (tier : PolicyTier) (rules : List PolicyRule) :
    ofRank PolicyRule.rank tier.rank rules = ofTier tier rules := by
  simp only [ofRank, ofTier, PolicyRule.rank, PolicyTier.rank_injective.eq_iff]

/-- Lists with the same rules in every tier up to a rank have the same rules of every such rank. -/
theorem ofRank_congr {rules rules' : List PolicyRule} {k : Nat}
    (same : ∀ tier : PolicyTier, tier.rank ≤ k → ofTier tier rules = ofTier tier rules') :
    ∀ j ≤ k, ofRank PolicyRule.rank j rules = ofRank PolicyRule.rank j rules' := by
  intro j low
  by_cases tiered : ∃ tier : PolicyTier, tier.rank = j
  · obtain ⟨tier, rfl⟩ := tiered
    rw [ofRank_rank, ofRank_rank, same tier low]
  · have none (rules : List PolicyRule) : ofRank PolicyRule.rank j rules = [] := by
      refine List.filter_eq_nil_iff.mpr fun rule _ ranked => ?_
      exact tiered ⟨rule.tier, of_decide_eq_true ranked⟩
    rw [none, none]

namespace PolicyEngine

/-- The rule that decides is the first in order of precedence that matches. -/
theorem decide_new (rules : List PolicyRule) (defaultAction : PolicyAction) (flow : FlowContext) :
    (new rules defaultAction).decide flow =
      match (byRank PolicyRule.rank rules).find? fun rule => rule.matcher.matchesFlow flow with
      | some rule => ⟨some rule.id, rule.tier, rule.action⟩
      | none => ⟨none, .default, defaultAction⟩ := rfl

/-- A decision that a rule makes depends on the rules of its tier and of stronger ones, tier by
tier. -/
theorem decide_congr {rules rules' : List PolicyRule} {defaultAction defaultAction' : PolicyAction}
    {flow : FlowContext}
    {rule : PolicyRule} (member : rule ∈ rules) (passes : rule.matcher.matchesFlow flow = true)
    (same : ∀ tier : PolicyTier, tier.rank ≤ rule.tier.rank →
      ofTier tier rules = ofTier tier rules') :
    (new rules' defaultAction').decide flow = (new rules defaultAction).decide flow := by
  rw [decide_new, decide_new]
  cases found : (byRank PolicyRule.rank rules).find? fun rule => rule.matcher.matchesFlow flow with
  | none =>
      have fails := find?_byRank_eq_none_iff.mp found rule member
      rw [passes] at fails
      cases fails
  | some first =>
      have low : first.rank ≤ rule.rank := (find?_byRank_iff.mp found).2 rule member passes
      rw [find?_byRank_congr (ofRank_congr same) low found]

end PolicyEngine

/-- The matching rule that is least by tier and then by position decides; the default action does,
without a rule id, exactly when no rule matches. So a decision depends on the rules of each tier and
their order only, and one that a rule makes only on its tier and stronger ones. -/
theorem policy_precedence (rules : List PolicyRule) (defaultAction : PolicyAction)
    (flow : FlowContext) :
    ((∃ i rule, Foremost PolicyRule.rank (fun rule => rule.matcher.matchesFlow flow) rules i rule ∧
        (PolicyEngine.new rules defaultAction).decide flow =
          ⟨some rule.id, rule.tier, rule.action⟩) ∨
      ((∀ rule ∈ rules, rule.matcher.matchesFlow flow = false) ∧
        (PolicyEngine.new rules defaultAction).decide flow = ⟨none, .default, defaultAction⟩)) ∧
    (((PolicyEngine.new rules defaultAction).decide flow).ruleId = none ↔
      ∀ rule ∈ rules, rule.matcher.matchesFlow flow = false) ∧
    (∀ rules', (∀ tier, ofTier tier rules = ofTier tier rules') →
      (PolicyEngine.new rules' defaultAction).decide flow =
        (PolicyEngine.new rules defaultAction).decide flow) ∧
    ∀ rules' rule, rule ∈ rules → rule.matcher.matchesFlow flow = true →
      (∀ tier : PolicyTier, tier.rank ≤ rule.tier.rank → ofTier tier rules = ofTier tier rules') →
      (PolicyEngine.new rules' defaultAction).decide flow =
        (PolicyEngine.new rules defaultAction).decide flow := by
  have decided := PolicyEngine.decide_new rules defaultAction flow
  refine ⟨?_, ?_, fun rules' same => ?_, fun rules' rule member passes same =>
    PolicyEngine.decide_congr member passes same⟩
  · rw [decided]
    cases found : (byRank PolicyRule.rank rules).find? fun rule =>
        rule.matcher.matchesFlow flow with
    | none => exact .inr ⟨find?_byRank_eq_none_iff.mp found, rfl⟩
    | some rule =>
        obtain ⟨i, foremost⟩ := find?_byRank_foremost.mp found
        exact .inl ⟨i, rule, foremost, rfl⟩
  · rw [decided, ← @find?_byRank_eq_none_iff _ PolicyRule.rank]
    cases (byRank PolicyRule.rank rules).find? fun rule => rule.matcher.matchesFlow flow with
    | none => exact ⟨fun _ => rfl, fun _ => rfl⟩
    | some rule => exact ⟨(fun no => nomatch no), (fun no => nomatch no)⟩
  · have equal : ((byRank PolicyRule.rank rules').find? fun rule => rule.matcher.matchesFlow flow) =
        (byRank PolicyRule.rank rules).find? fun rule => rule.matcher.matchesFlow flow := by
      ext rule
      constructor
      · exact find?_byRank_congr (ofRank_congr fun tier _ => (same tier).symm) (Nat.le_refl _)
      · exact find?_byRank_congr (ofRank_congr fun tier _ => same tier) (Nat.le_refl _)
    rw [decided, PolicyEngine.decide_new, equal]

def webFlow : FlowContext := ⟨1, {}, ⟨.domain "a.example".toList, 443⟩, .tcp, {}⟩

def hardRule : PolicyRule := ⟨1, .userHard, .any, .route .direct⟩

/-- An adaptive rule in front of a hard one changes nothing. -/
theorem policy_precedence_example :
    (PolicyEngine.new [⟨2, .adaptive, .any, .reject .policy⟩, hardRule] (.reject .policy)).decide
      webFlow =
      ⟨some 1, .userHard, .route .direct⟩ := by
  have kept : ∀ tier : PolicyTier, tier.rank ≤ hardRule.tier.rank →
      ofTier tier [hardRule] = ofTier tier [⟨2, .adaptive, .any, .reject .policy⟩, hardRule] := by
    intro tier strong
    have hard : tier = .userHard := PolicyTier.rank_injective (Nat.le_zero.mp strong)
    subst hard
    rfl
  rw [(policy_precedence [hardRule] (.reject .policy) webFlow).2.2.2 _ hardRule (by simp) rfl kept]
  rfl

end Commeatus.Core
