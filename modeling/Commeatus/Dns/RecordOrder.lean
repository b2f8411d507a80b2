import Commeatus.Dns.AliasOrder

/-!
When the order of the answer records makes no difference.

All orders accept the names within sixteen aliases, or none is accepted at all.
The outcome depends on the order exactly when it depends on whether the aliases
of a name that takes sixteen are followed.
-/

namespace Commeatus.Dns

open Commeatus.Lib Commeatus.Core

variable {query : DnsQuery} {recordType : AddressRecordType} {message : Bytes}
    {records records' : List ResourceRecord}
  {record : ResourceRecord} {s : AliasState}

/-- Errors of one kind, or the same addresses with the same lifetime. -/
inductive SameOutcome : Except DnsError DnsAnswer → Except DnsError DnsAnswer → Prop where
  | error {e e' : DnsError} (kind : e.kind = e'.kind) : SameOutcome (.error e) (.error e')
  | ok {answer answer' : DnsAnswer} (addresses : ∀ x, x ∈ answer.addresses ↔ x ∈ answer'.addresses)
      (ttl : answer.ttl = answer'.ttl) : SameOutcome (.ok answer) (.ok answer')

theorem SameOutcome.symm {outcome outcome' : Except DnsError DnsAnswer}
    (same : SameOutcome outcome outcome') :
    SameOutcome outcome' outcome := by
  cases same with
  | error kind => exact .error kind.symm
  | ok addresses ttl => exact .ok (fun x => (addresses x).symm) ttl.symm

theorem SameOutcome.trans {first second third : Except DnsError DnsAnswer}
    (same : SameOutcome first second)
    (same' : SameOutcome second third) : SameOutcome first third := by
  cases same with
  | error kind =>
      cases same' with
      | error kind' => exact .error (kind.trans kind')
  | ok addresses ttl =>
      cases same' with
      | ok addresses' ttl' =>
          exact .ok (fun x => (addresses x).trans (addresses' x)) (ttl.trans ttl')

/-- An error that tells of an invalid response. -/
def Invalid (outcome : Except DnsError DnsAnswer) : Prop := ∃ e, outcome = .error e ∧ TellsInvalid e

theorem Invalid.same {outcome outcome' : Except DnsError DnsAnswer} (invalid : Invalid outcome)
    (invalid' : Invalid outcome') :
    SameOutcome outcome outcome' := by
  obtain ⟨e, rfl, kind⟩ := invalid
  obtain ⟨e', rfl, kind'⟩ := invalid'
  exact .error (kind.trans kind'.symm)

/-! ### What the records decide -/

variable (query message records) in
/-- The names within one alias less than there are passes. -/
def near : Finset Str := reached message records query.name (maxDnsAliasHops - 1)

variable (query message records) in
/-- The names within as many aliases as there are passes. -/
def far : Finset Str := reached message records query.name maxDnsAliasHops

variable (query message records) in
/-- No order gets through the passes: an alias that all of them follow cannot be read, or there are
too many names. -/
inductive Lost : Prop where
  | unreadable {record : ResourceRecord} (member : record ∈ records) (cname : IsCname record)
      (owner : record.owner ∈ near query message records)
        (fails : ∀ target, aliasTarget message record ≠ .ok target) : Lost
  | tooMany (many : maxDnsAliasHops + 1 < (far query message records).card) : Lost

variable (query recordType message records) in
/-- A record of the requested type that counts in every order cannot be read. -/
def Unusable : Prop :=
  ∃ record ∈ records, Counts recordType (far query message records) record ∧ ∀ x,
    recordAddress recordType message record ≠ .ok x

variable (query message records) in
/-- An alias of a name that takes as many aliases as there are passes: whether it is followed
depends on the order. -/
structure Deep (record : ResourceRecord) : Prop where
  member : record ∈ records
  cname : IsCname record
  owner : record.owner ∈ far query message records
  late : record.owner ∉ near query message records

variable (query recordType message records) in
/-- The lifetime of the record counts in every order. -/
def Lasting (record : ResourceRecord) : Prop :=
  (IsCname record ∧ record.owner ∈ near query message records) ∨
    Counts recordType (far query message records) record

variable (query recordType message records) in
/-- Following the alias changes nothing: it leads to no new name, and there is no answer whose
lifetime it shortens. -/
def Harmless (record : ResourceRecord) : Prop :=
  (∃ target ∈ far query message records, aliasTarget message record = .ok target) ∧
    ((∀ r ∈ records, ¬ Counts recordType (far query message records) r) ∨
      ∃ r ∈ records, Lasting query recordType message records r ∧ r.ttl ≤ record.ttl)

variable (query message records) in
theorem query_far : query.name ∈ far query message records :=
  reached_mono (Nat.zero_le _) (Finset.mem_singleton_self query.name)

theorem far_eq : far query message records = widen message records (near query message records) :=
  reached_succ _

/-! ### One order -/

/-- The state before the first pass. -/
abbrev firstState (query : DnsQuery) : AliasState := { acceptedNames := {query.name} }

section Order

variable (perm : records'.Perm records)
  (accepted : acceptNames message records' maxDnsAliasHops (firstState query) = .ok s)
include perm accepted

/-- The last pass begins with all that is near. -/
theorem lastPass : ∃ s₀, followAliases message records' s₀ = .ok s ∧ near query message records ⊆
    s₀.acceptedNames := by
  obtain ⟨s₀, followed, began⟩ := acceptNames_last accepted
  refine ⟨s₀, followed, ?_⟩
  rw [near, ← reached_perm perm]
  exact began

theorem far_accepted : far query message records ⊆ s.acceptedNames := by
  obtain ⟨s₀, followed, began⟩ := lastPass perm accepted
  rw [far_eq, ← widen_perm perm]
  exact (widen_mono began).trans (followAliases_widens followed)

omit perm in
theorem accepted_led : Led message records' query.name s.acceptedNames ∧
    s.acceptedNames.card ≤ maxDnsAliasHops + 1 := by
  have led : Led message records' query.name {query.name} := by
    intro name member
    rw [Finset.mem_singleton.mp member]
    exact ⟨[], .here _, by simp⟩
  exact (acceptNames_grows accepted led (by simp)).2.2

/-- The aliases of what is near have been followed. -/
theorem near_followed (member : record ∈ records) (cname : IsCname record)
    (owner : record.owner ∈ near query message records) :
    ∃ target, IsAlias message record target ∧ target ∈ s.acceptedNames ∧
      Within s.chainTtl record.ttl := by
  obtain ⟨s₀, followed, began⟩ := lastPass perm accepted
  obtain ⟨target, isAlias⟩ :=
    followAliases_reads followed (perm.mem_iff.mpr member) cname (began owner)
  exact ⟨target, isAlias, followAliases_visits followed (perm.mem_iff.mpr member)
    isAlias (began owner)⟩

theorem not_lost : ¬ Lost query message records := by
  intro lost
  cases lost with
  | unreadable member cname owner fails =>
      obtain ⟨target, isAlias, -⟩ := near_followed perm accepted member cname owner
      exact fails target isAlias.2.2
  | tooMany many =>
      have few := (Finset.card_le_card (far_accepted perm accepted)).trans (accepted_led accepted).2
      omega

omit perm accepted in
/-- When what is far has no other aliases, every chain ends there. -/
theorem far_of_chain (closed : widen message records (far query message records) =
    far query message records) {name : Str}
    {chain : List ResourceRecord} (aliases : AliasChain message records query.name chain name) :
    name ∈ far query message records := by
  have reach := aliases.reached (query_far query message records)
  have fixed : reached message records query.name (maxDnsAliasHops + chain.length) =
      far query message records :=
    rounds_fixed ((reached_succ _).trans closed) (Nat.le_add_right _ _)
  rwa [fixed] at reach

/-- The accepted names are all names that aliases lead to, when what is far has no other aliases. -/
theorem accepted_closure
    (closed : widen message records (far query message records) = far query message records)
    (name : Str) :
    name ∈ s.acceptedNames ↔ ∃ chain, AliasChain message records query.name chain name := by
  constructor
  · intro member
    obtain ⟨chain, aliases, -⟩ := (accepted_led accepted).1 name member
    exact ⟨chain, aliases.perm perm⟩
  · rintro ⟨chain, aliases⟩
    exact far_accepted perm accepted (far_of_chain closed aliases)

/-- When a deep alias is the last of the records, it has been followed. -/
theorem deep_followed {rest : List ResourceRecord} (last : records' = rest ++ [record])
    (deep : Deep query message records record) :
    s.acceptedNames = far query message records ∧
      ∃ target, IsAlias message record target ∧ target ∈ s.acceptedNames ∧
        Within s.chainTtl record.ttl := by
  constructor
  · -- Each alias up to this one added a name, so there is room for no other.
    refine (Finset.eq_of_subset_of_card_le (far_accepted perm accepted)
      ((accepted_led accepted).2.trans ?_)).symm
    refine card_rounds widen_inflates (Finset.singleton_nonempty query.name) fun fixed =>
      deep.late ?_
    have same : far query message records = near query message records := fixed
    rw [← same]
    exact deep.owner
  · obtain ⟨s₀, followed, began⟩ := lastPass perm accepted
    subst last
    rw [followAliases_append] at followed
    obtain ⟨s₁, before, own⟩ := bind_eq_ok_iff.mp followed
    have owner : record.owner ∈ s₁.acceptedNames := by
      have member := deep.owner
      rw [far_eq] at member
      rcases mem_widen.mp member with no | ⟨r, listed, isAlias, known⟩
      · exact absurd no deep.late
      · rcases List.mem_append.mp (perm.mem_iff.mpr listed) with earlier | same
        · exact (followAliases_visits before earlier isAlias (began known)).1
        · rw [List.mem_singleton.mp same] at known
          exact absurd known deep.late
    obtain ⟨target, isAlias⟩ := followAliases_reads own (List.mem_singleton_self _) deep.cname owner
    exact ⟨target, isAlias, followAliases_visits own (List.mem_singleton_self _) isAlias owner⟩

end Order

/-! ### The outcome of one order -/

/-- The outcome of a run that accepted the names: the lifetimes of some records have counted for
sure, and no others than of the possible ones. -/
inductive Answers (recordType : AddressRecordType) (message : Bytes)
    (records : List ResourceRecord) (names : Finset Str)
    (sure possible : ResourceRecord → Prop) : Except DnsError DnsAnswer → Prop where
  | nothing {e : DnsError} (absent : ∀ record ∈ records, ¬ Counts recordType names record)
      (kind : e.kind = .noRecords) :
      Answers recordType message records names sure possible (.error e)
  | answer {answer : DnsAnswer} {ttl : Nat} (present : ∃ record ∈ records,
      Counts recordType names record)
      (addresses : ∀ x, x ∈ answer.addresses ↔ ∃ record ∈ records,
        Holds recordType message names record x)
      (lifetime : answer.ttl = some ttl)
      (least : ∃ record ∈ records, (possible record ∨ Counts recordType names record) ∧
        record.ttl = ttl)
      (bound : ∀ record ∈ records, sure record ∨ Counts recordType names record →
        ttl ≤ record.ttl) :
      Answers recordType message records names sure possible (.ok answer)

theorem resolve_answers
    (accepted : acceptNames message records maxDnsAliasHops (firstState query) = .ok s)
    (few : (heldAddresses recordType message records).card ≤ maxResolvedAddresses)
    (sound : ∀ record ∈ records, Counts recordType s.acceptedNames record →
      ∃ address, recordAddress recordType message record = .ok address)
    {sure possible : ResourceRecord → Prop}
    (counted : ∀ record ∈ records, sure record → Within s.chainTtl record.ttl)
    (comes : ComesFrom possible records none s.chainTtl) :
    Answers recordType message records s.acceptedNames sure possible
      (resolveAddressesThroughAliases query recordType message records) := by
  obtain ⟨⟨addresses, ttl⟩, collected, later⟩ := collectAddresses_succeeds sound ([], s.chainTtl)
  have resolved : resolveAddressesThroughAliases query recordType message records =
      DnsAnswer.new addresses ttl := by
    unfold resolveAddressesThroughAliases
    rw [accepted]
    change (collectAddresses recordType message s.acceptedNames records ([], s.chainTtl) >>= _) = _
    rw [collected]
    rfl
  have held := collectAddresses_mem collected
  have whole := collectAddresses_whole collected few
  obtain ⟨-, shorter, -⟩ := collectAddresses_grows collected
  rw [resolved]
  by_cases present : ∃ record ∈ records, Counts recordType s.acceptedNames record
  · obtain ⟨record, listed, counts⟩ := present
    obtain ⟨address, member, -⟩ := collectAddresses_reads collected listed counts
    obtain ⟨value, known, -⟩ := collectAddresses_within collected listed
      ⟨counts.1, counts.2.1, counts.2.2, (sound record listed counts).choose_spec⟩
    replace known : ttl = some value := known
    have nonempty : deduplicateBounded addresses ≠ [] := by
      rw [whole]
      exact List.ne_nil_of_mem member
    unfold DnsAnswer.new
    rw [dif_neg nonempty]
    have within : ∀ bound, Within ttl bound → value ≤ bound := by
      rintro bound ⟨value', known', small⟩
      cases known.symm.trans known'
      exact small
    have kept : ∀ x, x ∈ deduplicateBounded addresses ↔ ∃ record ∈ records,
        Holds recordType message s.acceptedNames record x := by
      rw [whole]
      exact held
    refine .answer ⟨record, listed, counts⟩ kept known ?_ ?_
    · rcases later value known with chained | ⟨r, among, counts, same⟩
      · rcases comes value chained with no | ⟨r, among, of, same⟩
        · cases no
        · exact ⟨r, among, .inl of, same⟩
      · exact ⟨r, among, .inr counts, same⟩
    · rintro r among (of | counts)
      · exact within _ (shorter _ (counted r among of))
      · obtain ⟨address, read⟩ := sound r among counts
        exact within _ (collectAddresses_within collected among ⟨counts.1, counts.2.1,
          counts.2.2, read⟩)
  · push Not at present
    have none : addresses = [] := by
      refine List.eq_nil_iff_forall_not_mem.mpr fun x member => ?_
      obtain ⟨record, listed, holds⟩ := (held x).mp member
      exact present record listed ⟨holds.1, holds.2.1, holds.2.2.1⟩
    subst none
    exact .nothing present rfl

/-- Two orders have the same outcome, when every lifetime that may count is at least one that counts
for sure. -/
theorem Answers.same (perm : records'.Perm records) {names : Finset Str}
    {sure possible : ResourceRecord → Prop}
    {outcome outcome' : Except DnsError DnsAnswer}
    (answers : Answers recordType message records names sure possible outcome)
    (answers' : Answers recordType message records' names sure possible outcome')
    (covered : ∀ record ∈ records, possible record → (∀ r ∈ records, ¬ Counts recordType names r) ∨
      ∃ r ∈ records, (sure r ∨ Counts recordType names r) ∧ r.ttl ≤ record.ttl) :
        SameOutcome outcome' outcome := by
  have lower : ∀ {ttl ttl' : Nat}, (∃ r ∈ records, Counts recordType names r) →
      (∀ r ∈ records, sure r ∨ Counts recordType names r → ttl ≤ r.ttl) →
      (∃ r ∈ records, (possible r ∨ Counts recordType names r) ∧ r.ttl = ttl') → ttl ≤ ttl' := by
    rintro ttl ttl' ⟨c, listed, counts⟩ bound ⟨r, among, of | own, rfl⟩
    · rcases covered r among of with no | ⟨r', among', of', le⟩
      · exact absurd counts (no c listed)
      · exact (bound r' among' of').trans le
    · exact bound r among (.inr own)
  cases answers with
  | nothing absent kind =>
      cases answers' with
      | nothing absent' kind' => exact .error (kind'.trans kind.symm)
      | answer present =>
          obtain ⟨record, listed, counts⟩ := present
          exact absurd counts (absent record (perm.mem_iff.mp listed))
  | answer present addresses lifetime least bound =>
      cases answers' with
      | nothing absent' =>
          obtain ⟨record, listed, counts⟩ := present
          exact absurd counts (absent' record (perm.mem_iff.mpr listed))
      | answer present' addresses' lifetime' least' bound' =>
          simp only [perm.mem_iff] at addresses' least' bound'
          refine .ok (fun x => (addresses' x).trans (addresses x).symm) ?_
          rw [lifetime, lifetime',
            Nat.le_antisymm (lower present bound' least) (lower present bound least')]

variable (recordType) in
theorem Invalid.of_error {e : DnsError}
    (failed : acceptNames message records maxDnsAliasHops (firstState query) = .error e) :
    Invalid (resolveAddressesThroughAliases query recordType message records) := by
  refine ⟨e, ?_, acceptNames_fails _ _ e failed⟩
  unfold resolveAddressesThroughAliases
  rw [failed]
  rfl

/-- The lifetime of an answer counts what the passes have counted. -/
theorem resolve_within {answer : DnsAnswer}
    (resolved : resolveAddressesThroughAliases query recordType message records = .ok answer)
    (accepted : acceptNames message records maxDnsAliasHops (firstState query) = .ok s) :
    Shortens s.chainTtl answer.ttl := by
  unfold resolveAddressesThroughAliases at resolved
  obtain ⟨s', accepted', rest⟩ := bind_eq_ok_iff.mp resolved
  cases accepted.symm.trans accepted'
  obtain ⟨state, collected, made⟩ := bind_eq_ok_iff.mp rest
  rw [(DnsAnswer.new_eq_ok made).2]
  exact (collectAddresses_grows collected).2.1

/-! ### All orders -/

/-- When an alias that all orders follow cannot be read, or there are too many names, every order is
rejected. -/
theorem Lost.invalid (lost : Lost query message records) (perm : records'.Perm records) :
    Invalid (resolveAddressesThroughAliases query recordType message records') := by
  cases ran : acceptNames message records' maxDnsAliasHops (firstState query) with
  | error e => exact .of_error recordType ran
  | ok s => exact absurd lost (not_lost perm ran)

/-- Nor does any order make an answer of an address that cannot be read. -/
theorem Unusable.invalid (unusable : Unusable query recordType message records)
    (perm : records'.Perm records) :
    Invalid (resolveAddressesThroughAliases query recordType message records') := by
  cases ran : acceptNames message records' maxDnsAliasHops (firstState query) with
  | error e => exact .of_error recordType ran
  | ok s =>
      obtain ⟨record, listed, counts, fails⟩ := unusable
      cases collected :
          collectAddresses recordType message s.acceptedNames records' ([], s.chainTtl) with
      | error e =>
          refine ⟨e, ?_, collectAddresses_fails _ _ e collected⟩
          unfold resolveAddressesThroughAliases
          rw [ran]
          change (collectAddresses recordType message s.acceptedNames records'
            ([], s.chainTtl) >>= _) = _
          rw [collected]
          rfl
      | ok state =>
          obtain ⟨address, -, read⟩ := collectAddresses_reads collected (perm.mem_iff.mpr listed)
            ⟨counts.1, counts.2.1, far_accepted perm ran counts.2.2⟩
          exact absurd read (fails address)

theorem near_readable (kept : ¬ Lost query message records) (member : record ∈ records)
    (cname : IsCname record)
    (owner : record.owner ∈ near query message records) :
    ∃ target, aliasTarget message record = .ok target := by
  by_contra fails
  push Not at fails
  exact kept (.unreadable member cname owner fails)

theorem few_far (kept : ¬ Lost query message records) :
    (far query message records).card ≤ maxDnsAliasHops + 1 := by
  by_contra many
  exact kept (.tooMany (Nat.lt_of_not_le many))

theorem heldAddresses_perm (perm : records'.Perm records) :
    heldAddresses recordType message records' = heldAddresses recordType message records :=
  List.toFinset_eq_of_perm _ _ (perm.filterMap _)

theorem usable (readable : ¬ Unusable query recordType message records) (member : record ∈ records)
    (counts : Counts recordType (far query message records) record) :
    ∃ address, recordAddress recordType message record = .ok address := by
  by_contra fails
  push Not at fails
  exact readable ⟨record, member, counts, fails⟩

section Kept

variable (kept : ¬ Lost query message records)
    (readable : ¬ Unusable query recordType message records)
  (few : (heldAddresses recordType message records).card ≤ maxResolvedAddresses)
include kept

/-- There is an order in which no deep alias is followed. -/
theorem exists_slow : ∃ slow, slow.Perm records ∧ ∃ s,
    acceptNames message slow maxDnsAliasHops (firstState query) = .ok s ∧
    s.acceptedNames = far query message records ∧
    ComesFrom (fun r => IsCname r ∧ r.owner ∈ near query message records) slow none s.chainTtl := by
  obtain ⟨slow, perm, late⟩ := exists_lateFirst
    (fun k (r : ResourceRecord) => r.owner ∈ reached message records query.name k)
    (fun le member => reached_mono le member) records maxDnsAliasHops
  have same : ∀ k, reached message slow query.name k = reached message records query.name k :=
    reached_perm perm
  simp only [← same] at late
  have readable : ∀ r ∈ slow, IsCname r →
    r.owner ∈ reached message slow query.name (maxDnsAliasHops - 1) →
      ∃ target, aliasTarget message r = .ok target := by
    intro r listed cname owner
    rw [same] at owner
    exact near_readable kept (perm.mem_iff.mp listed) cname owner
  have few : (reached message slow query.name maxDnsAliasHops).card ≤ maxDnsAliasHops + 1 := by
    rw [same]
    exact few_far kept
  have now : (firstState query).acceptedNames = reached message slow query.name 0 := rfl
  obtain ⟨s, accepted, names, comes⟩ := acceptNames_late (Nat.zero_add _) late readable few now
  simp only [same] at names comes
  exact ⟨slow, perm, s, accepted, names, comes⟩

/-- An alias record of a name that is far is near or deep. -/
theorem far_cases (member : record ∈ records) (cname : IsCname record)
    (owner : record.owner ∈ far query message records) :
    (∃ target ∈ far query message records, aliasTarget message record = .ok target) ∨
      Deep query message records record := by
  by_cases known : record.owner ∈ near query message records
  · obtain ⟨target, read⟩ := near_readable kept member cname known
    refine .inl ⟨target, ?_, read⟩
    rw [far_eq]
    exact mem_widen.mpr (.inr ⟨record, member, ⟨cname.1, cname.2, read⟩, known⟩)
  · exact .inr ⟨member, cname, owner, known⟩

/-- When the deep aliases lead to no new name, what is far is all. -/
theorem far_closed (inside : ∀ r, Deep query message records r →
    ∀ target, aliasTarget message r = .ok target →
      target ∈ far query message records) :
    widen message records (far query message records) = far query message records := by
  refine Finset.Subset.antisymm (fun x member => ?_) (widen_inflates _)
  rcases mem_widen.mp member with old | ⟨r, listed, isAlias, owner⟩
  · exact old
  · rcases far_cases kept listed ⟨isAlias.1, isAlias.2.1⟩ owner with ⟨target, among, read⟩ | deep
    · cases read.symm.trans isAlias.2.2
      exact among
    · exact inside r deep x isAlias.2.2

include readable few

/-- When the deep aliases are harmless, every order has the same answers. -/
theorem harmless_answers
    (harmless : ∀ r, Deep query message records r → Harmless query recordType message records r)
    (perm : records'.Perm records) :
    Answers recordType message records' (far query message records)
      (fun r => IsCname r ∧ r.owner ∈ near query message records) (fun r => IsCname r ∧
        r.owner ∈ far query message records)
      (resolveAddressesThroughAliases query recordType message records') := by
  have closed : AliasClosed message records' (far query message records) := by
    intro r listed cname owner
    rcases far_cases kept (perm.mem_iff.mp listed) cname owner with among | deep
    · exact among
    · exact (harmless r deep).1
  obtain ⟨s, accepted, within, comes⟩ :=
    acceptNames_within closed (few_far kept) maxDnsAliasHops (s := firstState query)
    (Finset.singleton_subset_iff.mpr (query_far query message records))
  have names : s.acceptedNames = far query message records :=
    Finset.Subset.antisymm within (far_accepted perm accepted)
  have counted : ∀ r ∈ records', IsCname r ∧ r.owner ∈ near query message records →
      Within s.chainTtl r.ttl := by
    intro r listed of
    obtain ⟨-, -, -, counted⟩ := near_followed perm accepted (perm.mem_iff.mp listed) of.1 of.2
    exact counted
  have answers := resolve_answers accepted (by rwa [heldAddresses_perm perm])
    (by
      rw [names]
      exact fun r listed counts => usable readable (perm.mem_iff.mp listed) counts) counted comes
  rwa [names] at answers

/-- An order in which a deep alias is followed has another outcome than the slow one, unless the
alias is harmless. -/
theorem harmless_of_same (same : ∀ records', records'.Perm records →
      SameOutcome (resolveAddressesThroughAliases query recordType message records')
        (resolveAddressesThroughAliases query recordType message records))
    (deep : Deep query message records record) :
    Harmless query recordType message records record := by
  obtain ⟨slow, slowPerm, s, accepted, names, comes⟩ := exists_slow kept
  have uncounted : ∀ r ∈ slow, False → Within s.chainTtl r.ttl := fun _ _ no => no.elim
  have answers := resolve_answers accepted (by rwa [heldAddresses_perm slowPerm])
    (by
      rw [names]
      exact fun r listed counts => usable readable (slowPerm.mem_iff.mp listed) counts)
    uncounted comes
  rw [names] at answers
  obtain ⟨front, back, split⟩ := List.append_of_mem deep.member
  have lastPerm : ((front ++ back) ++ [record]).Perm records := by
    rw [split]
    exact (List.perm_append_singleton _ _).trans List.perm_middle.symm
  have alike := (same _ lastPerm).trans (same _ slowPerm).symm
  cases ran :
      acceptNames message ((front ++ back) ++ [record]) maxDnsAliasHops (firstState query) with
  | error e =>
      -- No order fails in the passes, as the slow one does not.
      obtain ⟨e', failed, invalid⟩ := Invalid.of_error recordType ran
      rw [failed] at alike
      generalize resolveAddressesThroughAliases query recordType message slow =
        outcome at answers alike
      cases answers with
      | nothing absent kind =>
          cases alike with
          | error same => cases invalid.symm.trans (same.trans kind)
      | answer => cases alike
  | ok s' =>
      obtain ⟨names', target, isAlias, among, counted⟩ := deep_followed lastPerm ran rfl deep
      rw [names'] at among
      refine ⟨⟨target, among, isAlias.2.2⟩, ?_⟩
      generalize resolveAddressesThroughAliases query recordType message slow =
        outcome at answers alike
      generalize made :
        resolveAddressesThroughAliases query recordType message ((front ++ back) ++ [record]) =
          outcome'
        at alike
      cases answers with
      | nothing absent => exact .inl fun r listed => absent r (slowPerm.mem_iff.mpr listed)
      | answer present addresses lifetime least =>
          obtain ⟨r, listed, of, ttl⟩ := least
          cases alike with
          | ok addresses' same =>
              obtain ⟨value, known, small⟩ := resolve_within made ran _ counted
              rw [same, lifetime] at known
              cases known
              exact .inr ⟨r, slowPerm.mem_iff.mp listed, of, ttl.trans_le small⟩

end Kept

variable (query recordType message records) in
/-- The order of the records plays no part: every order has the same outcome; the names that the
passes accept are all names that aliases lead to; and when these are too many, the response is
invalid. -/
structure OrderFree : Prop where
  outcome : ∀ records', records'.Perm records →
    SameOutcome (resolveAddressesThroughAliases query recordType message records')
      (resolveAddressesThroughAliases query recordType message records)
  closure : ∀ records', records'.Perm records → ∀ s,
    acceptNames message records' maxDnsAliasHops { acceptedNames := {query.name} } = .ok s →
    ∀ name, name ∈ s.acceptedNames ↔ ∃ chain, AliasChain message records query.name chain name
  tooLong : ∀ names : Finset Str,
    (∀ name ∈ names, ∃ chain, AliasChain message records query.name chain name) →
    maxDnsAliasHops + 1 < names.card →
    ∀ records', records'.Perm records →
      Invalid (resolveAddressesThroughAliases query recordType message records')

/-- Of records with few addresses, the order plays no part exactly when all orders fail in the
passes, or no deep alias leads to a new name and either all orders fail at an address or the deep
aliases are harmless. -/
theorem order_free_iff (few : (heldAddresses recordType message records).card ≤
    maxResolvedAddresses) :
    OrderFree query recordType message records ↔
      Lost query message records ∨
        ((∀ r, Deep query message records r → ∀ target, aliasTarget message r = .ok target →
            target ∈ far query message records) ∧
          (Unusable query recordType message records ∨
            ∀ r, Deep query message records r → Harmless query recordType message records r)) := by
  by_cases lost : Lost query message records
  · refine iff_of_true ?_ (.inl lost)
    constructor
    · intro records' perm
      exact (lost.invalid perm).same (lost.invalid (.refl _))
    · intro records' perm s accepted
      exact absurd lost (not_lost perm accepted)
    · intro names led many records' perm
      exact lost.invalid perm
  constructor
  · intro free
    refine .inr ⟨fun r deep target read => ?_, ?_⟩
    · obtain ⟨slow, perm, s, accepted, names, -⟩ := exists_slow lost
      obtain ⟨chain, aliases, -⟩ := mem_reached.mp deep.owner
      rw [← names]
      exact (free.closure slow perm s accepted target).mpr
        ⟨_, aliases.snoc deep.member ⟨deep.cname.1, deep.cname.2, read⟩⟩
    · by_cases unusable : Unusable query recordType message records
      · exact .inl unusable
      · exact .inr fun r deep => harmless_of_same lost unusable few free.outcome deep
  · rintro (no | ⟨inside, fails⟩)
    · exact absurd no lost
    have closed := far_closed lost inside
    constructor
    · intro records' perm
      by_cases unusable : Unusable query recordType message records
      · exact (unusable.invalid perm).same (unusable.invalid (.refl _))
      · have harmless := fails.resolve_left unusable
        refine (harmless_answers lost unusable few harmless (.refl _)).same perm
          (harmless_answers lost unusable few harmless perm) ?_
        rintro r listed ⟨cname, owner⟩
        by_cases known : r.owner ∈ near query message records
        · exact .inr ⟨r, listed, .inl ⟨cname, known⟩, Nat.le_refl _⟩
        · exact (harmless r ⟨listed, cname, owner, known⟩).2
    · intro records' perm s accepted
      exact accepted_closure perm accepted closed
    · intro names led many
      -- All names are far, and those are not too many.
      have sub : names ⊆ far query message records := by
        intro name member
        obtain ⟨chain, aliases⟩ := led name member
        exact far_of_chain closed aliases
      have bounded := (Finset.card_le_card sub).trans (few_far lost)
      omega

/-- An alias from `a` to `b`, and the address of `b`. -/
theorem order_free_iff_example : OrderFree ⟨['a'], by decide⟩ .a [1, 98, 0, 192, 0, 2, 1]
    [⟨['a'], typeCname, classIn, 60, 0, 3⟩, ⟨['b'], typeA, classIn, 30, 3, 7⟩] := by
  have fixed : far ⟨['a'], by decide⟩ [1, 98, 0, 192, 0, 2, 1]
      [⟨['a'], typeCname, classIn, 60, 0, 3⟩, ⟨['b'], typeA, classIn, 30, 3, 7⟩] =
      near ⟨['a'], by decide⟩ [1, 98, 0, 192, 0, 2, 1]
      [⟨['a'], typeCname, classIn, 60, 0, 3⟩, ⟨['b'], typeA, classIn, 30, 3, 7⟩] := by
        decide +kernel
  refine (order_free_iff (by decide +kernel)).mpr (.inr ⟨fun r deep => ?_, .inr fun r deep => ?_⟩)
  · exact absurd (fixed ▸ deep.owner) deep.late
  · exact absurd (fixed ▸ deep.owner) deep.late

/-- An alias record between names of one letter. -/
def letterAlias (owner : UInt8) : Bytes :=
  [1, owner, 0, 0, 5, 0, 1, 0, 0, 0, 60, 0, 3, 1, owner + 1, 0]

/-- A response for `a` with the aliases from `a` to `r`, the last one first, and the address of
`a`. -/
def reversedChain : Bytes :=
  [0x12, 0x34, 0x81, 0x80, 0, 1, 0, 18, 0, 0, 0, 0] ++ [1, 97, 0, 0, 1, 0, 1] ++
    (List.range 17).reverse.flatMap (fun i => letterAlias (97 + UInt8.ofNat i)) ++
    [1, 97, 0, 0, 1, 0, 1, 0, 0, 0, 60, 0, 4, 192, 0, 2, 1]

/-- Seventeen aliases in reverse are accepted without the last, and refused in the order of the
chain. -/
theorem chain_order_matters :
    ∃ records, parseAnswerRecords 0x1234 ⟨['a'], by decide⟩ .a reversedChain = .ok records ∧
    (heldAddresses .a reversedChain records).card ≤ maxResolvedAddresses ∧
    ¬ OrderFree ⟨['a'], by decide⟩ .a reversedChain records := by
  have read :
      (parseAnswerRecords 0x1234 ⟨['a'], by decide⟩ .a reversedChain).toOption.map (fun records =>
      ((heldAddresses .a reversedChain records).card,
        (resolveAddressesThroughAliases ⟨['a'], by decide⟩ .a reversedChain
          records).toOption.isSome,
        (resolveAddressesThroughAliases ⟨['a'], by decide⟩ .a reversedChain
          records.reverse).toOption.isSome)) =
      some (1, true, false) := by decide +kernel
  obtain ⟨records, parsed, facts⟩ := exists_ok_of_map read
  simp only [Prod.mk.injEq] at facts
  obtain ⟨one, accepted, refused⟩ := facts
  refine ⟨records, parsed, by rw [one]; decide, fun free => ?_⟩
  have same := free.outcome _ (List.reverse_perm records)
  generalize resolveAddressesThroughAliases ⟨['a'], _⟩ .a reversedChain records =
    given at same accepted
  generalize resolveAddressesThroughAliases ⟨['a'], _⟩ .a reversedChain records.reverse =
    turned at same refused
  cases same with
  | error => cases accepted
  | ok => cases refused

end Commeatus.Dns
