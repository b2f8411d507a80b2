import Commeatus.Dns.Wire

/-!
The alias chain of a response.

The names that the passes over the records accept are those that alias records
lead to from the queried name, by chains within the bound on aliases; and the
lifetime of an answer is at most that of every record it came from, along the
whole chain.
-/

namespace Commeatus.Dns

open Commeatus.Lib Commeatus.Core

/-- A lifetime that is known and at most the bound. -/
def Within (ttl : Option Nat) (bound : Nat) : Prop := ∃ value, ttl = some value ∧ value ≤ bound

/-- A lifetime only gets shorter. -/
def Shortens (ttl ttl' : Option Nat) : Prop := ∀ bound, Within ttl bound → Within ttl' bound

theorem within_minTtl (current : Option Nat) (candidate : Nat) :
    Within (some (minTtl current candidate)) candidate := by
  refine ⟨_, rfl, ?_⟩
  cases current with
  | none => exact Nat.le_refl _
  | some value => exact Nat.min_le_right _ _

theorem shortens_minTtl (current : Option Nat) (candidate : Nat) :
    Shortens current (some (minTtl current candidate)) := by
  rintro bound ⟨value, rfl, small⟩
  exact ⟨_, rfl, Nat.le_trans (Nat.min_le_left _ _) small⟩

theorem Shortens.refl (ttl : Option Nat) : Shortens ttl ttl := fun _ => id

theorem Shortens.trans {ttl ttl' ttl'' : Option Nat} (first : Shortens ttl ttl')
    (second : Shortens ttl' ttl'') :
    Shortens ttl ttl'' := fun bound within => second bound (first bound within)

/-- The record is an alias of its owner. -/
def IsAlias (message : Bytes) (record : ResourceRecord) (target : Str) : Prop :=
  record.cls = classIn ∧ record.rrType = typeCname ∧ aliasTarget message record = .ok target

/-- The alias records lead from the first name to the last, one after the other. -/
inductive AliasChain (message : Bytes) (records : List ResourceRecord) :
    Str → List ResourceRecord → Str → Prop where
  | here (name : Str) : AliasChain message records name [] name
  | follow {record : ResourceRecord} {target last : Str} {chain : List ResourceRecord}
      (member : record ∈ records)
      (isAlias : IsAlias message record target)
        (rest : AliasChain message records target chain last) :
      AliasChain message records record.owner (record :: chain) last

theorem AliasChain.snoc {message : Bytes} {records chain : List ResourceRecord} {name target : Str}
    {record : ResourceRecord}
    (aliases : AliasChain message records name chain record.owner) (member : record ∈ records)
    (isAlias : IsAlias message record target) :
    AliasChain message records name (chain ++ [record]) target := by
  generalize ends : record.owner = last at aliases
  induction aliases with
  | here name =>
      subst ends
      exact .follow member isAlias (.here target)
  | follow member' isAlias' rest ih => exact .follow member' isAlias' (ih ends)

/-! ### One pass -/

/-- Every accepted name has a chain shorter than the number of accepted names. -/
def Led (message : Bytes) (records : List ResourceRecord) (start : Str)
    (names : Finset Str) : Prop :=
  ∀ name ∈ names, ∃ chain, AliasChain message records start chain name ∧ chain.length < names.card

/-- What one record of a pass does. -/
theorem followAliases_cons {message : Bytes} {record : ResourceRecord}
    {records : List ResourceRecord} {s s' : AliasState}
    (followed : followAliases message (record :: records) s = .ok s') :
    ((record.cls ≠ classIn ∨ record.rrType ≠ typeCname ∨ record.owner ∉ s.acceptedNames) ∧
      followAliases message records s = .ok s') ∨
    ∃ target, IsAlias message record target ∧ record.owner ∈ s.acceptedNames ∧
      followAliases message records ⟨insert target s.acceptedNames,
        some (minTtl s.chainTtl record.ttl),
        s.changed || decide (target ∉ s.acceptedNames)⟩ = .ok s' := by
  unfold followAliases at followed
  split at followed
  · rename_i skipped
    exact .inl ⟨skipped, followed⟩
  · rename_i taken
    push Not at taken
    obtain ⟨target, aliased, rest⟩ := bind_eq_ok_iff.mp followed
    exact .inr ⟨target, ⟨taken.1, taken.2.1, aliased⟩, taken.2.2, rest⟩

/-- A pass keeps what was accepted, and lifetimes only get shorter. -/
theorem followAliases_grows {message : Bytes} {records : List ResourceRecord} {s s' : AliasState}
    (followed : followAliases message records s = .ok s') :
    s.acceptedNames ⊆ s'.acceptedNames ∧ Shortens s.chainTtl s'.chainTtl ∧
      (s'.changed = false → s.changed = false ∧ s'.acceptedNames = s.acceptedNames) := by
  induction records generalizing s with
  | nil =>
      cases followed
      exact ⟨Finset.Subset.refl _, .refl _, fun unchanged => ⟨unchanged, rfl⟩⟩
  | cons record records ih =>
      rcases followAliases_cons followed with ⟨-, rest⟩ | ⟨target, -, -, rest⟩
      · exact ih rest
      · obtain ⟨subset, shorter, same⟩ := ih rest
        refine ⟨(Finset.subset_insert _ _).trans subset, (shortens_minTtl _ _).trans shorter,
          fun unchanged => ?_⟩
        obtain ⟨before, equal⟩ := same unchanged
        simp only [Bool.or_eq_false_iff, decide_eq_false_iff_not, not_not] at before
        exact ⟨before.1, by rw [equal, Finset.insert_eq_self.mpr before.2]⟩

/-- A pass accepts the target of every alias of a name that was accepted before it, and counts its
lifetime. -/
theorem followAliases_visits {message : Bytes} {records : List ResourceRecord} {s s' : AliasState}
    (followed : followAliases message records s = .ok s') {record : ResourceRecord}
    (member : record ∈ records)
    {target : Str} (isAlias : IsAlias message record target)
    (owner : record.owner ∈ s.acceptedNames) :
    target ∈ s'.acceptedNames ∧ Within s'.chainTtl record.ttl := by
  induction records generalizing s with
  | nil => cases member
  | cons first records ih =>
      rcases List.mem_cons.mp member with rfl | later
      · rcases followAliases_cons followed with ⟨skipped, -⟩ | ⟨target', isAlias', -, rest⟩
        · rcases skipped with no | no | no
          · exact absurd isAlias.1 no
          · exact absurd isAlias.2.1 no
          · exact absurd owner no
        · obtain ⟨subset, shorter, -⟩ := followAliases_grows rest
          have same : target' = target := Except.ok.inj (isAlias'.2.2.symm.trans isAlias.2.2)
          subst same
          exact ⟨subset (Finset.mem_insert_self _ _), shorter _ (within_minTtl _ _)⟩
      · rcases followAliases_cons followed with ⟨-, rest⟩ | ⟨target', -, -, rest⟩
        · exact ih rest later owner
        · exact ih rest later (Finset.mem_insert_of_mem owner)

/-- A pass accepts only what alias records lead to. -/
theorem followAliases_led {message : Bytes} {all records : List ResourceRecord}
    (sub : records ⊆ all) {start : Str}
    {s s' : AliasState} (followed : followAliases message records s = .ok s')
    (led : Led message all start s.acceptedNames) :
    Led message all start s'.acceptedNames := by
  induction records generalizing s with
  | nil =>
      cases followed
      exact led
  | cons record records ih =>
      have rest_sub : records ⊆ all := fun r later => sub (List.mem_cons_of_mem _ later)
      rcases followAliases_cons followed with ⟨-, rest⟩ | ⟨target, isAlias, owner, rest⟩
      · exact ih rest_sub rest led
      · refine ih rest_sub rest fun name member => ?_
        by_cases known : target ∈ s.acceptedNames
        · simp only [Finset.insert_eq_self.mpr known] at member ⊢
          exact led name member
        · simp only [Finset.card_insert_of_notMem known]
          rcases Finset.mem_insert.mp member with rfl | old
          · obtain ⟨chain, aliases, short⟩ := led record.owner owner
            exact ⟨chain ++ [record], aliases.snoc (sub List.mem_cons_self) isAlias, by simp; omega⟩
          · obtain ⟨chain, aliases, short⟩ := led name old
            exact ⟨chain, aliases, by omega⟩

/-! ### All passes -/

/-- One pass of the loop, and whether it goes on. -/
theorem acceptNames_succ {message : Bytes} {records : List ResourceRecord}
    {hops : Nat} {s s' : AliasState}
    (accepted : acceptNames message records (hops + 1) s = .ok s') :
    ∃ s₁, followAliases message records { s with changed := false } = .ok s₁ ∧
      ((s₁.changed = false ∧ s' = s₁) ∨
        (s₁.acceptedNames.card ≤ maxDnsAliasHops + 1 ∧
          acceptNames message records hops s₁ = .ok s')) := by
  unfold acceptNames at accepted
  obtain ⟨s₁, followed, rest⟩ := bind_eq_ok_iff.mp accepted
  refine ⟨s₁, followed, ?_⟩
  split at rest
  · rename_i unchanged
    cases rest
    exact .inl ⟨by simpa using unchanged, rfl⟩
  · obtain ⟨u, few, rest⟩ := bind_eq_ok_iff.mp rest
    exact .inr ⟨Nat.le_of_not_lt (refuse_eq_ok_iff.mp few), rest⟩

/-- The passes keep what was accepted, accept only what alias records lead to, and stay within the
bound. -/
theorem acceptNames_grows {message : Bytes} {records : List ResourceRecord}
    {hops : Nat} {s s' : AliasState}
    (accepted : acceptNames message records hops s = .ok s') {start : Str}
    (led : Led message records start s.acceptedNames)
    (few : s.acceptedNames.card ≤ maxDnsAliasHops + 1) :
    s.acceptedNames ⊆ s'.acceptedNames ∧ Shortens s.chainTtl s'.chainTtl ∧
    Led message records start s'.acceptedNames ∧
      s'.acceptedNames.card ≤ maxDnsAliasHops + 1 := by
  induction hops generalizing s with
  | zero =>
      cases accepted
      exact ⟨Finset.Subset.refl _, .refl _, led, few⟩
  | succ hops ih =>
      obtain ⟨s₁, followed, ends⟩ := acceptNames_succ accepted
      obtain ⟨subset, shorter, same⟩ := followAliases_grows followed
      have led₁ := followAliases_led (List.Subset.refl _) followed led
      rcases ends with ⟨unchanged, rfl⟩ | ⟨few₁, rest⟩
      · refine ⟨subset, shorter, led₁, ?_⟩
        rw [(same unchanged).2]
        exact few
      · obtain ⟨subset', shorter', led', few'⟩ := ih rest led₁ few₁
        exact ⟨subset.trans subset', shorter.trans shorter', led', few'⟩

/-- After a pass that accepted nothing new, every chain from an accepted name stays among the
accepted names. -/
theorem followAliases_closed {message : Bytes} {records : List ResourceRecord} {s s' : AliasState}
    (followed : followAliases message records s = .ok s')
    (unchanged : s'.changed = false) {name last : Str}
    {chain : List ResourceRecord} (aliases : AliasChain message records name chain last)
    (start : name ∈ s.acceptedNames) :
    last ∈ s'.acceptedNames ∧ ∀ r ∈ chain, Within s'.chainTtl r.ttl := by
  obtain ⟨subset, -, same⟩ := followAliases_grows followed
  induction aliases with
  | here name => exact ⟨subset start, fun _ no => absurd no List.not_mem_nil⟩
  | follow member isAlias rest ih =>
      obtain ⟨target, within⟩ := followAliases_visits followed member isAlias start
      rw [(same unchanged).2] at target
      obtain ⟨reached, rest_within⟩ := ih target
      refine ⟨reached, fun r chained => ?_⟩
      rcases List.mem_cons.mp chained with rfl | later
      · exact within
      · exact rest_within r later

/-- The passes reach the end of every chain that is no longer than their number, and count the
lifetimes on it. -/
theorem acceptNames_reaches {message : Bytes} {records : List ResourceRecord}
    {hops : Nat} {s s' : AliasState}
    (accepted : acceptNames message records hops s = .ok s') {start : Str}
    (led : Led message records start s.acceptedNames)
    (few : s.acceptedNames.card ≤ maxDnsAliasHops + 1) {name last : Str}
    {chain : List ResourceRecord}
    (aliases : AliasChain message records name chain last) (short : chain.length ≤ hops)
    (known : name ∈ s.acceptedNames) :
    last ∈ s'.acceptedNames ∧ ∀ r ∈ chain, Within s'.chainTtl r.ttl := by
  induction hops generalizing s name chain with
  | zero =>
      cases accepted
      cases aliases with
      | here => exact ⟨known, fun _ no => absurd no List.not_mem_nil⟩
      | follow member isAlias rest => exact absurd short (by simp)
  | succ hops ih =>
      obtain ⟨s₁, followed, ends⟩ := acceptNames_succ accepted
      rcases ends with ⟨unchanged, rfl⟩ | ⟨few₁, rest⟩
      · exact followAliases_closed followed unchanged aliases known
      have led₁ := followAliases_led (List.Subset.refl _) followed led
      cases aliases with
      | here =>
          obtain ⟨subset, -, -⟩ := followAliases_grows followed
          obtain ⟨subset', -, -⟩ := acceptNames_grows rest led₁ few₁
          exact ⟨subset' (subset known), fun _ no => absurd no List.not_mem_nil⟩
      | follow member isAlias later =>
          obtain ⟨target, within⟩ := followAliases_visits followed member isAlias known
          obtain ⟨-, shorter, -⟩ := acceptNames_grows rest led₁ few₁
          obtain ⟨reached, rest_within⟩ := ih rest led₁ few₁ later (by simpa using short) target
          refine ⟨reached, fun r chained => ?_⟩
          rcases List.mem_cons.mp chained with rfl | tail
          · exact shorter _ within
          · exact rest_within r tail

/-! ### The addresses -/

/-- The record holds an address of an accepted name. -/
def Holds (recordType : AddressRecordType) (message : Bytes) (names : Finset Str)
    (record : ResourceRecord)
    (address : IpAddr) : Prop :=
  record.cls = classIn ∧ record.rrType = recordType.code ∧ record.owner ∈ names ∧
    recordAddress recordType message record = .ok address

theorem collectAddresses_cons {recordType : AddressRecordType}
    {message : Bytes} {names : Finset Str}
    {record : ResourceRecord} {records : List ResourceRecord}
    {state state' : List IpAddr × Option Nat}
    (collected : collectAddresses recordType message names (record :: records) state = .ok state') :
    ((record.cls ≠ classIn ∨ record.rrType ≠ recordType.code ∨ record.owner ∉ names) ∧
      collectAddresses recordType message names records state = .ok state') ∨
    ∃ address, Holds recordType message names record address ∧
      collectAddresses recordType message names records (pushNew state.1 address,
        some (minTtl state.2 record.ttl)) =
        .ok state' := by
  unfold collectAddresses at collected
  split at collected
  · rename_i skipped
    exact .inl ⟨skipped, collected⟩
  · rename_i taken
    push Not at taken
    obtain ⟨address, held, rest⟩ := bind_eq_ok_iff.mp collected
    exact .inr ⟨address, ⟨taken.1, taken.2.1, taken.2.2, held⟩, rest⟩

theorem collectAddresses_grows {recordType : AddressRecordType}
    {message : Bytes} {names : Finset Str}
    {records : List ResourceRecord} {state state' : List IpAddr × Option Nat}
    (collected : collectAddresses recordType message names records state = .ok state') :
    state.1 ⊆ state'.1 ∧ Shortens state.2 state'.2 ∧
      ∀ x ∈ state'.1, x ∈ state.1 ∨ ∃ record ∈ records,
        Holds recordType message names record x := by
  induction records generalizing state with
  | nil =>
      cases collected
      exact ⟨List.Subset.refl _, .refl _, fun x => .inl⟩
  | cons record records ih =>
      rcases collectAddresses_cons collected with ⟨-, rest⟩ | ⟨address, holds, rest⟩
      · obtain ⟨subset, shorter, sources⟩ := ih rest
        refine ⟨subset, shorter, fun x member => ?_⟩
        rcases sources x member with old | ⟨source, later, held⟩
        · exact .inl old
        · exact .inr ⟨source, List.mem_cons_of_mem _ later, held⟩
      · obtain ⟨subset, shorter, sources⟩ := ih rest
        refine ⟨fun x old => subset (mem_pushNew.mpr (.inl old)),
          (shortens_minTtl _ _).trans shorter, fun x member => ?_⟩
        rcases sources x member with new | ⟨source, later, held⟩
        · rcases mem_pushNew.mp new with old | rfl
          · exact .inl old
          · exact .inr ⟨record, List.mem_cons_self, holds⟩
        · exact .inr ⟨source, List.mem_cons_of_mem _ later, held⟩

/-- The lifetime of every record that holds an address is counted. -/
theorem collectAddresses_within {recordType : AddressRecordType}
    {message : Bytes} {names : Finset Str}
    {records : List ResourceRecord} {state state' : List IpAddr × Option Nat}
    (collected : collectAddresses recordType message names records state = .ok state')
    {record : ResourceRecord}
    (member : record ∈ records) {address : IpAddr}
    (holds : Holds recordType message names record address) :
    Within state'.2 record.ttl := by
  induction records generalizing state with
  | nil => cases member
  | cons first records ih =>
      rcases List.mem_cons.mp member with rfl | later
      · rcases collectAddresses_cons collected with ⟨skipped, -⟩ | ⟨address', -, rest⟩
        · rcases skipped with no | no | no
          · exact absurd holds.1 no
          · exact absurd holds.2.1 no
          · exact absurd holds.2.2.1 no
        · obtain ⟨-, shorter, -⟩ := collectAddresses_grows rest
          exact shorter _ (within_minTtl _ _)
      · rcases collectAddresses_cons collected with ⟨-, rest⟩ | ⟨address', -, rest⟩
        · exact ih rest later
        · exact ih rest later

/-- The record holds the address, and the chain leads from the queried name to its owner. -/
structure Source (query : DnsQuery) (recordType : AddressRecordType) (message : Bytes)
    (records chain : List ResourceRecord)
    (record : ResourceRecord) (address : IpAddr) : Prop where
  member : record ∈ records
  cls : record.cls = classIn
  rrType : record.rrType = recordType.code
  aliases : AliasChain message records query.name chain record.owner
  short : chain.length ≤ maxDnsAliasHops
  address : recordAddress recordType message record = .ok address

/-- Every address of an answer has a source, and the lifetime of the answer is at most that of every
source and of every alias on the way to it. -/
theorem resolveAddressesThroughAliases_sources {query : DnsQuery}
    {recordType : AddressRecordType} {message : Bytes}
    {records : List ResourceRecord} {answer : DnsAnswer}
    (resolved : resolveAddressesThroughAliases query recordType message records = .ok answer) :
    (∀ x ∈ answer.addresses, ∃ chain record,
      Source query recordType message records chain record x) ∧
    ∀ chain record x, Source query recordType message records chain record x →
      Within answer.ttl record.ttl ∧ ∀ r ∈ chain, Within answer.ttl r.ttl := by
  unfold resolveAddressesThroughAliases at resolved
  obtain ⟨s, accepted, rest⟩ := bind_eq_ok_iff.mp resolved
  obtain ⟨⟨addresses, ttl⟩, collected, made⟩ := bind_eq_ok_iff.mp rest
  obtain ⟨same, lifetime⟩ := DnsAnswer.new_eq_ok made
  have led : Led message records query.name {query.name} := by
    intro name member
    rw [Finset.mem_singleton.mp member]
    exact ⟨[], .here _, by simp⟩
  have few : ({query.name} : Finset Str).card ≤ maxDnsAliasHops + 1 := by simp
  obtain ⟨-, -, led', few'⟩ := acceptNames_grows accepted led few
  obtain ⟨-, shorter, sources⟩ := collectAddresses_grows collected
  constructor
  · intro x member
    rw [same] at member
    rcases sources x (mem_of_mem_deduplicateBounded member) with no | ⟨record, listed, cls,
      rrType, owner, held⟩
    · cases no
    · obtain ⟨chain, aliases, short⟩ := led' record.owner owner
      exact ⟨chain, record, listed, cls, rrType, aliases, by omega, held⟩
  · rintro chain record x ⟨listed, cls, rrType, aliases, short, held⟩
    obtain ⟨owner, within⟩ :=
      acceptNames_reaches accepted led few aliases short (Finset.mem_singleton_self _)
    rw [lifetime]
    exact ⟨collectAddresses_within collected listed ⟨cls, rrType, owner, held⟩,
      fun r chained => shorter _ (within r chained)⟩

end Commeatus.Dns
