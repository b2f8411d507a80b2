import Commeatus.Dns.Aliases
import Commeatus.Lib.Saturation

/-!
Where the order of the answer records matters.

A pass over the records that are in the order of a chain accepts all of it, a
pass over the reverse order one name. The passes end after sixteen, and after
each there may be seventeen names: the names within sixteen aliases are
accepted in every order, but whether the aliases of the last of them are
followed depends on the order.
-/

namespace Commeatus.Dns

open Commeatus.Lib Commeatus.Core

variable {query : DnsQuery} {recordType : AddressRecordType} {message : Bytes}
    {records records' : List ResourceRecord}
  {start x : Str} {names : Finset Str}

/-! ### What the aliases reach -/

/-- A CNAME record of the Internet class. -/
def IsCname (record : ResourceRecord) : Prop := record.cls = classIn ∧ record.rrType = typeCname

instance (record : ResourceRecord) : Decidable (IsCname record) :=
  inferInstanceAs (Decidable (_ ∧ _))

/-- The names, and those that their aliases lead to. -/
def widen (message : Bytes) (records : List ResourceRecord) (names : Finset Str) : Finset Str :=
  names ∪ (records.filterMap fun record =>
    if IsCname record ∧ record.owner ∈ names then (aliasTarget message record).toOption
      else none).toFinset

/-- The names within a number of aliases. -/
def reached (message : Bytes) (records : List ResourceRecord) (start : Str)
    (hops : Nat) : Finset Str :=
  (widen message records)^[hops] {start}

theorem mem_widen : x ∈ widen message records names ↔
    x ∈ names ∨ ∃ record ∈ records, IsAlias message record x ∧ record.owner ∈ names := by
  simp only [widen, Finset.mem_union, List.mem_toFinset, List.mem_filterMap]
  refine or_congr_right (exists_congr fun record => and_congr_right fun _ => ?_)
  constructor
  · intro chosen
    split at chosen
    · rename_i followed
      exact ⟨⟨followed.1.1, followed.1.2, toOption_eq_some_iff.mp chosen⟩, followed.2⟩
    · cases chosen
  · rintro ⟨isAlias, owner⟩
    rw [if_pos ⟨⟨isAlias.1, isAlias.2.1⟩, owner⟩, isAlias.2.2]
    rfl

theorem widen_inflates (names : Finset Str) : names ⊆ widen message records names :=
  fun _ member => mem_widen.mpr (.inl member)

theorem widen_mono {names names' : Finset Str} (sub : names ⊆ names') :
    widen message records names ⊆ widen message records names' := by
  intro x member
  rcases mem_widen.mp member with old | ⟨record, listed, isAlias, owner⟩
  · exact mem_widen.mpr (.inl (sub old))
  · exact mem_widen.mpr (.inr ⟨record, listed, isAlias, sub owner⟩)

theorem reached_succ (hops : Nat) :
    reached message records start (hops + 1) =
      widen message records (reached message records start hops) :=
  Function.iterate_succ_apply' _ _ _

theorem reached_mono {k j : Nat} (le : k ≤ j) :
    reached message records start k ⊆ reached message records start j :=
  rounds_mono widen_inflates _ le

theorem widen_perm (perm : records'.Perm records) :
    widen message records' = widen message records := by
  funext names
  ext x
  simp only [mem_widen, perm.mem_iff]

/-- What the aliases reach does not depend on the order of the records. -/
theorem reached_perm (perm : records'.Perm records) (hops : Nat) :
    reached message records' start hops = reached message records start hops := by
  unfold reached
  rw [widen_perm perm]

theorem AliasChain.perm {name last : Str} {chain : List ResourceRecord}
    (aliases : AliasChain message records' name chain last)
    (perm : records'.Perm records) : AliasChain message records name chain last := by
  induction aliases with
  | here name => exact .here name
  | follow member isAlias rest ih => exact .follow (perm.mem_iff.mp member) isAlias ih

theorem AliasChain.reached {name last : Str} {chain : List ResourceRecord}
    (aliases : AliasChain message records name chain last)
    {hops : Nat} (known : name ∈ reached message records start hops) :
    last ∈ reached message records start (hops + chain.length) := by
  induction aliases generalizing hops with
  | here name => exact known
  | @follow record target last chain member isAlias rest ih =>
      have next : target ∈ Dns.reached message records start (hops + 1) := by
        rw [reached_succ]
        exact mem_widen.mpr (.inr ⟨record, member, isAlias, known⟩)
      have later := ih next
      rwa [Nat.add_right_comm, Nat.add_assoc] at later

/-- A name is within a number of aliases when a chain no longer than that leads to it. -/
theorem mem_reached {hops : Nat} : x ∈ reached message records start hops ↔
    ∃ chain, AliasChain message records start chain x ∧ chain.length ≤ hops := by
  constructor
  · intro member
    induction hops generalizing x with
    | zero =>
        rw [Finset.mem_singleton.mp member]
        exact ⟨[], .here _, Nat.le_refl _⟩
    | succ hops ih =>
        rw [reached_succ] at member
        rcases mem_widen.mp member with old | ⟨record, listed, isAlias, owner⟩
        · obtain ⟨chain, aliases, short⟩ := ih old
          exact ⟨chain, aliases, Nat.le_succ_of_le short⟩
        · obtain ⟨chain, aliases, short⟩ := ih owner
          exact ⟨chain ++ [record], aliases.snoc listed isAlias, by simpa using short⟩
  · rintro ⟨chain, aliases, short⟩
    have begun : start ∈ reached message records start 0 := Finset.mem_singleton_self start
    have member := aliases.reached begun
    rw [Nat.zero_add] at member
    exact reached_mono short member

/-! ### Every order accepts what is near -/

/-- A pass accepts what the aliases of the accepted names lead to. -/
theorem followAliases_widens {s s' : AliasState}
    (followed : followAliases message records s = .ok s') :
    widen message records s.acceptedNames ⊆ s'.acceptedNames := by
  intro x member
  rcases mem_widen.mp member with old | ⟨record, listed, isAlias, owner⟩
  · exact (followAliases_grows followed).1 old
  · exact (followAliases_visits followed listed isAlias owner).1

/-- A pass that succeeds has read the alias records of the accepted names. -/
theorem followAliases_reads {s s' : AliasState}
    (followed : followAliases message records s = .ok s') {record : ResourceRecord}
    (member : record ∈ records) (cname : IsCname record) (owner : record.owner ∈ s.acceptedNames) :
    ∃ target, IsAlias message record target := by
  induction records generalizing s with
  | nil => cases member
  | cons first records ih =>
      rcases followAliases_cons followed with ⟨skipped, rest⟩ | ⟨target, isAlias, -, rest⟩
      · rcases List.mem_cons.mp member with rfl | later
        · rcases skipped with no | no | no
          · exact absurd cname.1 no
          · exact absurd cname.2 no
          · exact absurd owner no
        · exact ih rest later owner
      · rcases List.mem_cons.mp member with rfl | later
        · exact ⟨target, isAlias⟩
        · exact ih rest later (Finset.mem_insert_of_mem owner)

/-- The last pass that was made began with all that is within one alias less than there are
passes. -/
theorem acceptNames_last {hops : Nat} {s s' : AliasState}
    (accepted : acceptNames message records (hops + 1) s = .ok s') :
    ∃ s₀, followAliases message records s₀ = .ok s' ∧
      (widen message records)^[hops] s.acceptedNames ⊆ s₀.acceptedNames := by
  induction hops generalizing s with
  | zero =>
      obtain ⟨s₁, followed, ⟨-, rfl⟩ | ⟨-, done⟩⟩ := acceptNames_succ accepted
      · exact ⟨_, followed, Finset.Subset.refl _⟩
      · cases done
        exact ⟨_, followed, Finset.Subset.refl _⟩
  | succ hops ih =>
      obtain ⟨s₁, followed, ⟨unchanged, rfl⟩ | ⟨-, rest⟩⟩ := acceptNames_succ accepted
      · -- A pass that accepts nothing new has begun with everything.
        have closed : widen message records s.acceptedNames = s.acceptedNames := by
          apply Finset.Subset.antisymm _ (widen_inflates _)
          have all := followAliases_widens followed
          rw [((followAliases_grows followed).2.2 unchanged).2] at all
          exact all
        refine ⟨_, followed, ?_⟩
        rw [Function.iterate_fixed closed]
      · obtain ⟨s₀, last, began⟩ := ih rest
        refine ⟨s₀, last, Finset.Subset.trans ?_ began⟩
        have monotone : Monotone (widen message records) := fun _ _ sub => widen_mono sub
        have wider : widen message records s.acceptedNames ⊆ s₁.acceptedNames :=
          followAliases_widens (s := { s with changed := false }) followed
        exact monotone.iterate hops wider

/-- The aliases of the names stay among them. -/
def AliasClosed (message : Bytes) (records : List ResourceRecord) (names : Finset Str) : Prop :=
  ∀ record ∈ records, IsCname record → record.owner ∈ names → ∃ target ∈ names,
    aliasTarget message record = .ok target

/-- A lifetime comes from the former one or from an alias record of the kind. -/
def ComesFrom (kind : ResourceRecord → Prop) (records : List ResourceRecord)
    (ttl ttl' : Option Nat) : Prop :=
  ∀ value, ttl' = some value → ttl = some value ∨ ∃ record ∈ records,
    kind record ∧ record.ttl = value

theorem minTtl_cases (current : Option Nat) (candidate : Nat) :
    current = some (minTtl current candidate) ∨ minTtl current candidate = candidate := by
  cases current with
  | none => exact .inr rfl
  | some value =>
      rcases Nat.le_total value candidate with shorter | shorter
      · exact .inl (by rw [minTtl, Nat.min_eq_left shorter])
      · exact .inr (Nat.min_eq_right shorter)

/-- A pass over records whose aliases stay among some names succeeds, and stays among them too. -/
theorem followAliases_within (closed : AliasClosed message records names) {s : AliasState}
    (sub : s.acceptedNames ⊆ names) :
    ∃ s', followAliases message records s = .ok s' ∧ s'.acceptedNames ⊆ names ∧
      ComesFrom (fun record => IsCname record ∧ record.owner ∈ names) records s.chainTtl
        s'.chainTtl := by
  induction records generalizing s with
  | nil => exact ⟨s, rfl, sub, fun value known => .inl known⟩
  | cons record records ih =>
      have rest : AliasClosed message records names :=
        fun r later => closed r (List.mem_cons_of_mem _ later)
      unfold followAliases
      split
      · obtain ⟨s', followed, within, comes⟩ := ih rest sub
        refine ⟨s', followed, within, fun value known => ?_⟩
        rcases comes value known with old | ⟨r, later, of⟩
        · exact .inl old
        · exact .inr ⟨r, List.mem_cons_of_mem _ later, of⟩
      · rename_i taken
        push Not at taken
        obtain ⟨target, among, aliased⟩ :=
          closed record List.mem_cons_self ⟨taken.1, taken.2.1⟩ (sub taken.2.2)
        obtain ⟨s', followed, within, comes⟩ := ih rest
          (s := ⟨insert target s.acceptedNames, some (minTtl s.chainTtl record.ttl),
            s.changed || decide (target ∉ s.acceptedNames)⟩)
          (Finset.insert_subset among sub)
        refine ⟨s', by rw [aliased]; exact followed, within, fun value known => ?_⟩
        rcases comes value known with new | ⟨r, later, of⟩
        · rcases minTtl_cases s.chainTtl record.ttl with old | own
          · exact .inl (old.trans new)
          · exact .inr ⟨record, List.mem_cons_self, ⟨⟨taken.1, taken.2.1⟩, sub taken.2.2⟩,
              own.symm.trans (Option.some.inj new)⟩
        · exact .inr ⟨r, List.mem_cons_of_mem _ later, of⟩

theorem ComesFrom.trans {kind : ResourceRecord → Prop} {ttl ttl' ttl'' : Option Nat}
    (first : ComesFrom kind records ttl ttl')
    (second : ComesFrom kind records ttl' ttl'') : ComesFrom kind records ttl ttl'' := by
  intro value known
  rcases second value known with old | new
  · exact first value old
  · exact .inr new

theorem ComesFrom.mono {kind kind' : ResourceRecord → Prop} {ttl ttl' : Option Nat}
    (comes : ComesFrom kind records ttl ttl')
    {all : List ResourceRecord}
    (sub : ∀ record ∈ records, kind record → record ∈ all ∧ kind' record) :
    ComesFrom kind' all ttl ttl' := by
  intro value known
  rcases comes value known with old | ⟨record, listed, of, same⟩
  · exact .inl old
  · exact .inr ⟨record, (sub record listed of).1, (sub record listed of).2, same⟩

theorem acceptNames_stop {hops : Nat} {s s₁ : AliasState}
    (followed : followAliases message records { s with changed := false } = .ok s₁)
    (unchanged : s₁.changed = false) :
    acceptNames message records (hops + 1) s = .ok s₁ := by
  unfold acceptNames
  rw [followed]
  exact if_pos (by simpa using unchanged)

theorem acceptNames_go {hops : Nat} {s s₁ : AliasState}
    (followed : followAliases message records { s with changed := false } = .ok s₁)
    (changed : s₁.changed = true)
    (few : s₁.acceptedNames.card ≤ maxDnsAliasHops + 1) :
    acceptNames message records (hops + 1) s = acceptNames message records hops s₁ := by
  unfold acceptNames
  rw [followed]
  refine (if_neg (by simpa using changed)).trans ?_
  rw [refuse_of_not (Nat.not_lt.mpr few)]
  cases hops <;> rfl

/-- The passes over records whose aliases stay among few names succeed, and stay among them. -/
theorem acceptNames_within (closed : AliasClosed message records names)
    (few : names.card ≤ maxDnsAliasHops + 1) (hops : Nat)
    {s : AliasState} (sub : s.acceptedNames ⊆ names) :
    ∃ s', acceptNames message records hops s = .ok s' ∧ s'.acceptedNames ⊆ names ∧
      ComesFrom (fun record => IsCname record ∧ record.owner ∈ names) records s.chainTtl
        s'.chainTtl := by
  induction hops generalizing s with
  | zero => exact ⟨s, rfl, sub, fun value known => .inl known⟩
  | succ hops ih =>
      obtain ⟨s₁, followed, within, comes⟩ :=
        followAliases_within closed (s := { s with changed := false }) sub
      cases changed : s₁.changed with
      | false => exact ⟨s₁, acceptNames_stop followed changed, within, comes⟩
      | true =>
          rw [acceptNames_go followed changed ((Finset.card_le_card within).trans few)]
          obtain ⟨s', accepted, within', comes'⟩ := ih within
          exact ⟨s', accepted, within', comes.trans comes'⟩

/-! ### An order in which each pass accepts as little as it can -/

theorem followAliases_skip {front : List ResourceRecord} {s : AliasState}
    (skipped : ∀ record ∈ front, record.owner ∉ s.acceptedNames)
    (back : List ResourceRecord) :
    followAliases message (front ++ back) s = followAliases message back s := by
  induction front with
  | nil => rfl
  | cons record front ih =>
      rw [List.cons_append, followAliases, if_pos (.inr (.inr (skipped record List.mem_cons_self)))]
      exact ih fun r later => skipped r (List.mem_cons_of_mem _ later)

theorem followAliases_append (front back : List ResourceRecord) (s : AliasState) :
    followAliases message (front ++ back) s = followAliases message front s >>=
      followAliases message back := by
  induction front generalizing s with
  | nil => rfl
  | cons record front ih =>
      rw [List.cons_append, followAliases, followAliases]
      split
      · exact ih s
      · simp only [ih, bind_assoc]

variable (message) in
/-- When the aliases of the accepted names come last, a pass accepts only what they lead to. -/
theorem followAliases_late {s : AliasState}
    (late : LateFirst (fun record => record.owner ∈ s.acceptedNames) records)
    (readable : ∀ record ∈ records, IsCname record → record.owner ∈ s.acceptedNames →
      ∃ target, aliasTarget message record = .ok target) :
    ∃ s', followAliases message records s = .ok s' ∧
      s'.acceptedNames = widen message records s.acceptedNames ∧
      ComesFrom (fun record => IsCname record ∧ record.owner ∈ s.acceptedNames) records s.chainTtl
        s'.chainTtl := by
  obtain ⟨front, back, rfl, skipped, taken⟩ := late.split
  have closed : AliasClosed message back (widen message (front ++ back) s.acceptedNames) := by
    intro record listed cname _
    have among : record ∈ front ++ back := List.mem_append_right _ listed
    obtain ⟨target, read⟩ := readable record among cname (taken record listed)
    exact ⟨target, mem_widen.mpr
      (.inr ⟨record, among, ⟨cname.1, cname.2, read⟩, taken record listed⟩), read⟩
  obtain ⟨s', followed, within, comes⟩ := followAliases_within closed (s := s) (widen_inflates _)
  rw [← followAliases_skip skipped back] at followed
  refine ⟨s', followed, Finset.Subset.antisymm within (followAliases_widens followed),
    comes.mono fun record listed of => ?_⟩
  exact ⟨List.mem_append_right _ listed, of.1, taken record listed⟩

/-- Then the passes accept what is within as many aliases, and follow no others. -/
theorem acceptNames_late {hops k : Nat} (total : k + hops = maxDnsAliasHops)
    (late : ∀ k < maxDnsAliasHops,
      LateFirst (fun record => record.owner ∈ reached message records start k) records)
    (readable : ∀ record ∈ records, IsCname record →
      record.owner ∈ reached message records start (maxDnsAliasHops - 1) →
      ∃ target, aliasTarget message record = .ok target)
    (few : (reached message records start maxDnsAliasHops).card ≤ maxDnsAliasHops + 1)
    {s : AliasState}
    (now : s.acceptedNames = reached message records start k) :
    ∃ s', acceptNames message records hops s = .ok s' ∧
      s'.acceptedNames = reached message records start maxDnsAliasHops ∧
      ComesFrom (fun record => IsCname record ∧
        record.owner ∈ reached message records start (maxDnsAliasHops - 1)) records
        s.chainTtl s'.chainTtl := by
  induction hops generalizing k s with
  | zero =>
      rw [Nat.add_zero] at total
      subst total
      exact ⟨s, rfl, now, fun value known => .inl known⟩
  | succ hops ih =>
      have near : reached message records start k ⊆
          reached message records start (maxDnsAliasHops - 1) :=
        reached_mono (by omega)
      obtain ⟨s₁, followed, names, comes⟩ :=
        followAliases_late message (s := { s with changed := false })
        (by rw [now]; exact late k (by omega))
        (fun record listed cname owner => readable record listed cname (near (now ▸ owner)))
      have next : s₁.acceptedNames = reached message records start (k + 1) := by
        rw [reached_succ, ← now]
        exact names
      replace comes :
        ComesFrom (fun record => IsCname record ∧
          record.owner ∈ reached message records start (maxDnsAliasHops - 1))
          records s.chainTtl s₁.chainTtl :=
            comes.mono fun record listed of => ⟨listed, of.1, near (now ▸ of.2)⟩
      cases changed : s₁.changed with
      | false =>
          have fixed : reached message records start (k + 1) = reached message records start k := by
            rw [← next, ← now]
            exact ((followAliases_grows followed).2.2 changed).2
          have all : reached message records start maxDnsAliasHops =
              reached message records start k :=
            rounds_fixed fixed (by omega)
          exact ⟨s₁, acceptNames_stop followed changed, by rw [next, fixed, all], comes⟩
      | true =>
          have room : s₁.acceptedNames.card ≤ maxDnsAliasHops + 1 := by
            rw [next]
            exact (Finset.card_le_card (reached_mono (by omega))).trans few
          rw [acceptNames_go followed changed room]
          obtain ⟨s', accepted, names', comes'⟩ := ih (by omega) next
          exact ⟨s', accepted, names', comes.trans comes'⟩

/-! ### The errors of the passes -/

/-- The error tells of an invalid response. -/
def TellsInvalid (e : DnsError) : Prop := e.kind = .invalidResponse

theorem decodeLabels_fails (message : Bytes) (s : NameState) :
    FailsWith TellsInvalid (decodeLabels message s) := by
  fun_induction decodeLabels message s <;> first | assumption | exact .error rfl | exact .ok _

theorem refuse_fails (bad : Prop) [Decidable bad] (text : String) :
    FailsWith TellsInvalid (refuse bad (invalidResponse text)) :=
  .refuse rfl

theorem decodeName_fails (message : Bytes) (offset : Nat) :
    FailsWith TellsInvalid (decodeName message offset) := by
  refine (decodeLabels_fails message _).bind fun found => ?_
  dsimp only
  refine (refuse_fails _ _).bind fun _ => ?_
  split
  · exact .ok _
  · exact .error rfl

theorem aliasTarget_fails (message : Bytes) (record : ResourceRecord) :
    FailsWith TellsInvalid (aliasTarget message record) :=
  (decodeName_fails message _).bind fun found => (refuse_fails _ _).bind fun _ => .ok found.1

theorem followAliases_fails (records : List ResourceRecord) (s : AliasState) :
    FailsWith TellsInvalid (followAliases message records s) := by
  induction records generalizing s with
  | nil => exact .ok s
  | cons record records ih =>
      unfold followAliases
      split
      · exact ih s
      · exact (aliasTarget_fails message record).bind fun _ => ih _

theorem acceptNames_fails (hops : Nat) (s : AliasState) :
    FailsWith TellsInvalid (acceptNames message records hops s) := by
  induction hops generalizing s with
  | zero => exact .ok s
  | succ hops ih =>
      refine (followAliases_fails records _).bind fun s₁ => ?_
      split
      · exact .ok s₁
      · exact (refuse_fails _ _).bind fun _ => ih s₁

theorem recordAddress_fails (record : ResourceRecord) :
    FailsWith TellsInvalid (recordAddress recordType message record) := by
  cases recordType with
  | a =>
      unfold recordAddress
      exact (refuse_fails _ _).bind fun _ => .ok _
  | aaaa =>
      unfold recordAddress
      exact (refuse_fails _ _).bind fun _ => .ok _

theorem collectAddresses_fails (records : List ResourceRecord) (state : List IpAddr × Option Nat) :
    FailsWith TellsInvalid (collectAddresses recordType message names records state) := by
  induction records generalizing state with
  | nil => exact .ok state
  | cons record records ih =>
      unfold collectAddresses
      split
      · exact ih _
      · exact (recordAddress_fails record).bind fun _ => ih _

/-! ### The addresses -/

/-- A record of the requested type that one of the names owns. -/
def Counts (recordType : AddressRecordType) (names : Finset Str) (record : ResourceRecord) : Prop :=
  record.cls = classIn ∧ record.rrType = recordType.code ∧ record.owner ∈ names

/-- The address that a record of the requested type holds, whoever owns it. -/
def heldAddress (recordType : AddressRecordType) (message : Bytes)
    (record : ResourceRecord) : Option IpAddr :=
  if record.cls = classIn ∧ record.rrType = recordType.code then
    (recordAddress recordType message record).toOption else none

/-- The different addresses that the records hold. -/
def heldAddresses (recordType : AddressRecordType) (message : Bytes)
    (records : List ResourceRecord) : Finset IpAddr :=
  (records.filterMap (heldAddress recordType message)).toFinset

theorem collectAddresses_reads {state state' : List IpAddr × Option Nat}
    (collected : collectAddresses recordType message names records state = .ok state')
    {record : ResourceRecord}
    (member : record ∈ records) (counts : Counts recordType names record) :
    ∃ address ∈ state'.1, recordAddress recordType message record = .ok address := by
  induction records generalizing state with
  | nil => cases member
  | cons first records ih =>
      rcases collectAddresses_cons collected with ⟨skipped, rest⟩ | ⟨address, holds, rest⟩
      · rcases List.mem_cons.mp member with rfl | later
        · rcases skipped with no | no | no
          · exact absurd counts.1 no
          · exact absurd counts.2.1 no
          · exact absurd counts.2.2 no
        · exact ih rest later
      · rcases List.mem_cons.mp member with rfl | later
        · exact ⟨address, (collectAddresses_grows rest).1 (mem_pushNew.mpr (.inr rfl)), holds.2.2.2⟩
        · exact ih rest later

theorem collectAddresses_nodup {state state' : List IpAddr × Option Nat}
    (collected : collectAddresses recordType message names records state = .ok state')
    (distinct : state.1.Nodup) :
    state'.1.Nodup := by
  induction records generalizing state with
  | nil =>
      cases collected
      exact distinct
  | cons first records ih =>
      rcases collectAddresses_cons collected with ⟨-, rest⟩ | ⟨address, -, rest⟩
      · exact ih rest distinct
      · exact ih rest (nodup_pushNew distinct address)

/-- When all that count can be read, the collection succeeds. -/
theorem collectAddresses_succeeds (sound : ∀ record ∈ records, Counts recordType names record →
      ∃ address, recordAddress recordType message record = .ok address)
        (state : List IpAddr × Option Nat) :
    ∃ state', collectAddresses recordType message names records state = .ok state' ∧
      ComesFrom (Counts recordType names) records state.2 state'.2 := by
  induction records generalizing state with
  | nil => exact ⟨state, rfl, fun value known => .inl known⟩
  | cons record records ih =>
      have rest : ∀ r ∈ records, Counts recordType names r → ∃ address,
          recordAddress recordType message r = .ok address :=
        fun r later => sound r (List.mem_cons_of_mem _ later)
      unfold collectAddresses
      split
      · obtain ⟨state', collected, comes⟩ := ih rest state
        exact ⟨state', collected, comes.mono fun r later of => ⟨List.mem_cons_of_mem _ later, of⟩⟩
      · rename_i taken
        push Not at taken
        obtain ⟨address, read⟩ := sound record List.mem_cons_self taken
        obtain ⟨state', collected, comes⟩ :=
          ih rest (pushNew state.1 address, some (minTtl state.2 record.ttl))
        refine ⟨state', by rw [read]; exact collected, fun value known => ?_⟩
        rcases comes value known with new | ⟨r, later, of⟩
        · rcases minTtl_cases state.2 record.ttl with old | own
          · exact .inl (old.trans new)
          · exact .inr ⟨record, List.mem_cons_self, taken, own.symm.trans (Option.some.inj new)⟩
        · exact .inr ⟨r, List.mem_cons_of_mem _ later, of⟩

/-- The collection holds the addresses of all records that count. -/
theorem collectAddresses_mem {addresses : List IpAddr} {ttl ttl' : Option Nat}
    (collected : collectAddresses recordType message names records ([], ttl) =
      .ok (addresses, ttl')) (x : IpAddr) :
    x ∈ addresses ↔ ∃ record ∈ records, Holds recordType message names record x := by
  constructor
  · intro member
    rcases (collectAddresses_grows collected).2.2 x member with no | source
    · cases no
    · exact source
  · rintro ⟨record, listed, holds⟩
    obtain ⟨address, member, read⟩ :=
      collectAddresses_reads collected listed ⟨holds.1, holds.2.1, holds.2.2.1⟩
    cases read.symm.trans holds.2.2.2
    exact member

theorem mem_heldAddresses {record : ResourceRecord} {x : IpAddr} (member : record ∈ records)
    (holds : Holds recordType message names record x) :
    x ∈ heldAddresses recordType message records := by
  refine List.mem_toFinset.mpr (List.mem_filterMap.mpr ⟨record, member, ?_⟩)
  unfold heldAddress
  rw [if_pos ⟨holds.1, holds.2.1⟩, holds.2.2.2]
  rfl

/-- When the records hold few addresses, an answer leaves none of them out. -/
theorem collectAddresses_whole {addresses : List IpAddr} {ttl ttl' : Option Nat}
    (collected : collectAddresses recordType message names records ([], ttl) =
      .ok (addresses, ttl'))
    (few : (heldAddresses recordType message records).card ≤ maxResolvedAddresses) :
    deduplicateBounded addresses = addresses := by
  have distinct : addresses.Nodup := collectAddresses_nodup collected List.nodup_nil
  refine deduplicateBounded_of_nodup distinct ?_
  rw [← List.toFinset_card_of_nodup distinct]
  refine (Finset.card_le_card fun x member => ?_).trans few
  obtain ⟨record, listed, holds⟩ :=
    (collectAddresses_mem collected x).mp (List.mem_toFinset.mp member)
  exact mem_heldAddresses listed holds

end Commeatus.Dns
