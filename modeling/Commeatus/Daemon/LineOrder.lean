import Commeatus.Daemon.AcceptedConfig
import Commeatus.Daemon.LineNumbers
import Commeatus.Lib.Reorder

/-!
The meaning of a configuration does not depend on how its kinds of directives
are interleaved.

The accumulators fall into parts. A directive reads and writes only the part of
its kind, and references to endpoints are only collected, so directives of
different parts commute. Directives of one part keep their order, but for those
that may occur only once.
-/

namespace Commeatus.Daemon

open Commeatus.Lib Commeatus.Core Commeatus.Dns Commeatus.Compat

/-- The parts of the accumulators. -/
inductive Part where
  | version | allowPublicListen | listeners | resolvers | endpoints | defaultAction | hosts | rules
  deriving DecidableEq

/-- The part that a kind of directives reads and writes. -/
def Keyword.part : Keyword → Part
  | .version => .version
  | .allowPublicListen => .allowPublicListen
  | .listen => .listeners
  | .resolver => .resolvers
  | .endpoint => .endpoints
  | .default => .defaultAction
  | .hosts => .hosts
  | .rule => .rules
  | .blocklist => .rules

variable {η : Type} {platform : Platform η} {root : Str}

namespace ParseState

/-- One part, with all others as at the start. -/
def only (part : Part) (s : ParseState η) : ParseState η :=
  match part with
  | .version => { versionSeen := s.versionSeen }
  | .allowPublicListen => { allowPublicListen := s.allowPublicListen }
  | .listeners => { listeners := s.listeners, listenerAddresses := s.listenerAddresses }
  | .resolvers =>
      { dnsResolverSummaries := s.dnsResolverSummaries
        dnsResolvers := s.dnsResolvers
        dnsResolverKeys := s.dnsResolverKeys }
  | .endpoints => { endpointConfigs := s.endpointConfigs, endpointIds := s.endpointIds }
  | .defaultAction => { defaultAction := s.defaultAction }
  | .hosts => { hosts := s.hosts, hostsPaths := s.hostsPaths, hostsTable := s.hostsTable }
  | .rules =>
      { rules := s.rules
        nextRuleId := s.nextRuleId
        blocklists := s.blocklists
        blocklistPaths := s.blocklistPaths }

/-- The part of another state, whose references join. -/
def put (s : ParseState η) (part : Part) (c : ParseState η) : ParseState η :=
  match part with
  | .version => { s with versionSeen := c.versionSeen }
  | .allowPublicListen => { s with allowPublicListen := c.allowPublicListen }
  | .listeners => { s with listeners := c.listeners, listenerAddresses := c.listenerAddresses }
  | .resolvers =>
      { s with
        dnsResolverSummaries := c.dnsResolverSummaries, dnsResolvers :=
          c.dnsResolvers, dnsResolverKeys := c.dnsResolverKeys }
  | .endpoints => { s with endpointConfigs := c.endpointConfigs, endpointIds := c.endpointIds }
  | .defaultAction =>
      { s with
        defaultAction := c.defaultAction
        referencedEndpoints := s.referencedEndpoints ++ c.referencedEndpoints }
  | .hosts => { s with hosts := c.hosts, hostsPaths := c.hostsPaths, hostsTable := c.hostsTable }
  | .rules =>
      { s with
        rules := c.rules, nextRuleId := c.nextRuleId, blocklists := c.blocklists, blocklistPaths :=
          c.blocklistPaths
        referencedEndpoints := s.referencedEndpoints ++ c.referencedEndpoints }

end ParseState

theorem map_bind {ε α β γ : Type} (g : β → γ) (x : Except ε α) (f : α → Except ε β) :
    (x >>= f).map g = x >>= fun a => (f a).map g := by
  cases x <;> rfl

/-- A directive does to its part what it does to the whole. -/
theorem directive_local (word : Keyword) (fields : List Str) (line : Nat) (s : ParseState η) :
    word.directive platform root fields line s =
      (word.directive platform root fields line (s.only word.part)).map (s.put word.part) := by
  cases word with
  | resolver =>
      simp only [Keyword.directive, resolverDirective, map_bind]
      have room : (s.only Keyword.resolver.part).dnsResolvers = s.dnsResolvers := rfl
      rw [room]
      congr 1
      funext u
      split
      · split
        · simp only [systemResolverDirective, map_bind]
          rfl
        · rfl
      · split
        · simp only [dotResolverDirective, map_bind]
          rfl
        · rfl
      · rfl
  | blocklist =>
      simp only [Keyword.directive, blocklistDirective, map_bind]
      refine bind_congr fun _ => bind_congr fun _ => bind_congr fun _ => bind_congr fun _ =>
        bind_congr fun loaded => ?_
      -- A blocklist has no references.
      have none : s.referencedEndpoints ++ [] = s.referencedEndpoints := List.append_nil _
      obtain ⟨filter, stats⟩ := loaded
      change _ = (pure _ : Except ConfigError (ParseState η))
      simp only [Keyword.part, ParseState.put, ParseState.only, none]
  | version =>
      simp only [Keyword.directive, versionDirective, map_bind]
      rfl
  | allowPublicListen =>
      simp only [Keyword.directive, allowPublicListenDirective, map_bind]
      rfl
  | listen =>
      simp only [Keyword.directive, listenDirective, map_bind]
      rfl
  | endpoint =>
      simp only [Keyword.directive, endpointDirective, map_bind]
      rfl
  | default =>
      simp only [Keyword.directive, defaultDirective, map_bind]
      rfl
  | hosts =>
      simp only [Keyword.directive, hostsDirective, map_bind]
      rfl
  | rule =>
      simp only [Keyword.directive, ruleDirective, map_bind]
      rfl

/-! ### States that differ in the order of references alone -/

/-- Equal but for the order in which the references were collected. -/
structure Similar (s t : ParseState η) : Prop where
  same : { s with referencedEndpoints := [] } = { t with referencedEndpoints := [] }
  references : s.referencedEndpoints.Perm t.referencedEndpoints

theorem similar_equivalence : Equivalence (Similar (η := η)) where
  refl _ := ⟨rfl, .refl _⟩
  symm similar := ⟨similar.same.symm, similar.references.symm⟩
  trans first second := ⟨first.same.trans second.same, first.references.trans second.references⟩

namespace ParseState

theorem only_forget (part : Part) (s : ParseState η) :
    s.only part = ({ s with referencedEndpoints := [] }).only part := by
  cases part <;> rfl

theorem put_forget (part : Part) (s c : ParseState η) :
    { s.put part c with referencedEndpoints := [] } =
      { ({ s with referencedEndpoints := [] } : ParseState η).put part c with
        referencedEndpoints := [] } := by
  cases part <;> rfl

/-- The references that join with a part. -/
def partReferences (part : Part) (c : ParseState η) : List EndpointId :=
  match part with
  | .defaultAction | .rules => c.referencedEndpoints
  | _ => []

theorem put_references (part : Part) (s c : ParseState η) :
    (s.put part c).referencedEndpoints = s.referencedEndpoints ++ c.partReferences part := by
  cases part <;> simp [put, partReferences]

/-- What is done to one part leaves the others. -/
theorem only_put {part other : Part} (apart : part ≠ other) (s c : ParseState η) :
    (s.put part c).only other = s.only other := by
  cases part <;> cases other <;> first | rfl | exact absurd rfl apart

/-- Different parts can be put in any order. -/
theorem put_put {part other : Part} (apart : part ≠ other) (s c d : ParseState η) :
    Similar ((s.put part c).put other d) ((s.put other d).put part c) := by
  constructor
  · cases part <;> cases other <;> first | rfl | exact absurd rfl apart
  · simp only [put_references, List.append_assoc]
    exact List.perm_append_comm.append_left _

end ParseState

theorem Similar.only {s t : ParseState η} (similar : Similar s t) (part : Part) :
    s.only part = t.only part := by
  rw [ParseState.only_forget, similar.same, ← ParseState.only_forget]

theorem Similar.put {s t : ParseState η} (similar : Similar s t) (part : Part) (c : ParseState η) :
    Similar (s.put part c) (t.put part c) := by
  constructor
  · rw [ParseState.put_forget, similar.same, ← ParseState.put_forget]
  · rw [ParseState.put_references, ParseState.put_references]
    exact similar.references.append_right _

/-! ### Lines in any order -/

variable (platform root) in
/-- What a line that is not empty does, if it is accepted. -/
def accept (fields : List Str) (s : ParseState η) : Option (ParseState η) :=
  (keyword fields).bind fun word => (word.directive platform root fields 0 s).toOption

/-- The lines of a text that are not empty. -/
def directives (raws : List Str) : List (List Str) :=
  (raws.map lineFields).filter fun fields => !fields.isEmpty

theorem parseLine_accept (raw : Str) (line : Nat) (s : ParseState η) (some : lineFields raw ≠ []) :
    (parseLine platform root raw line s).toOption = accept platform root (lineFields raw) s := by
  unfold parseLine accept
  obtain ⟨word, rest, fields⟩ := List.exists_cons_of_ne_nil some
  rw [fields]
  dsimp only [List.head?_cons]
  cases keyword (word :: rest) with
  | none => rfl
  | some k => exact directive_anywhere line 0 root k

/-- Whether a text is accepted line by line, and what it leaves, depends on the lines that are not
empty alone. -/
theorem parseLines_accept (raws : List Str) (line : Nat) (s : ParseState η) :
    (parseLines platform root raws line s).toOption =
      readAll (accept platform root) (directives raws) s := by
  induction raws generalizing line s with
  | nil => rfl
  | cons raw raws ih =>
      rw [parseLines, toOption_bind]
      simp only [ih]
      by_cases empty : lineFields raw = []
      · have blank : parseLine platform root raw line s = .ok s := by
          unfold parseLine
          rw [empty]
          rfl
        have dropped : directives (raw :: raws) = directives raws := by simp [directives, empty]
        rw [blank, dropped]
        rfl
      · have kept : directives (raw :: raws) = lineFields raw :: directives raws := by
          simp [directives, empty]
        rw [parseLine_accept raw line s empty, kept]
        rfl

/-- A line does to its part what it does to the whole. -/
theorem accept_local {fields : List Str} {word : Keyword}
    (known : keyword fields = some word) (s : ParseState η) :
    accept platform root fields s =
      (accept platform root fields (s.only word.part)).map (s.put word.part) := by
  unfold accept
  rw [known, Option.bind_some, Option.bind_some, directive_local, toOption_map]

theorem accept_unknown {fields : List Str} (unknown : keyword fields = none) (s : ParseState η) :
    accept platform root fields s = none := by
  unfold accept
  rw [unknown]
  rfl

theorem accept_similar (fields : List Str) {s t : ParseState η} (similar : Similar s t) :
    Option.Rel Similar (accept platform root fields s) (accept platform root fields t) := by
  cases known : keyword fields with
  | none =>
      rw [accept_unknown known, accept_unknown known]
      exact .none
  | some word =>
      rw [accept_local known s, accept_local known t, similar.only]
      cases accept platform root fields (t.only word.part) with
      | none => exact .none
      | some c => exact .some (similar.put word.part c)

/-- Lines of different parts are independent. -/
theorem independent_of_parts {fields fields' : List Str} {word word' : Keyword}
    (known : keyword fields = some word)
    (known' : keyword fields' = some word') (apart : word.part ≠ word'.part) :
    Independent (accept platform root) (Similar (η := η)) fields fields' := by
  intro s
  rw [accept_local known s, accept_local known' s]
  cases first : accept platform root fields (s.only word.part) with
  | none =>
      cases second : accept platform root fields' (s.only word'.part) with
      | none => exact .none
      | some d =>
          change Option.Rel Similar none (accept platform root fields (s.put word'.part d))
          rw [accept_local known, ParseState.only_put (Ne.symm apart), first]
          exact .none
  | some c =>
      change Option.Rel Similar (accept platform root fields' (s.put word.part c)) _
      rw [accept_local known', ParseState.only_put apart]
      cases second : accept platform root fields' (s.only word'.part) with
      | none => exact .none
      | some d =>
          change Option.Rel Similar _ (accept platform root fields (s.put word'.part d))
          rw [accept_local known, ParseState.only_put (Ne.symm apart), first]
          exact .some (ParseState.put_put apart s c d)

/-- The directives that may occur once. -/
def Keyword.once : List Keyword := [.version, .allowPublicListen, .default]

/-- A directive that may occur once has occurred. -/
def ParseState.seen (s : ParseState η) : Keyword → Bool
  | .version => s.versionSeen
  | .allowPublicListen => s.allowPublicListen.isSome
  | .default => s.defaultAction.isSome
  | _ => false

theorem Effect.seen {fields : List Str} {s t : ParseState η} {word : Keyword}
    (single : word ∈ Keyword.once)
    (effect : Effect platform root fields s word t) : t.seen word = true := by
  cases effect with
  | version | allowPublicListen | default => rfl
  | _ => simp [Keyword.once] at single

theorem directive_fresh {fields : List Str} {line : Nat} {s t : ParseState η} {word : Keyword}
    (ok : word.directive platform root fields line s = .ok t) : s.seen word = false := by
  cases word with
  | version =>
      obtain ⟨-, later⟩ := refuse_bind_eq_ok_iff.mp ok
      obtain ⟨-, last⟩ := refuse_bind_eq_ok_iff.mp later
      exact eq_false_of_ne_true (refuse_bind_eq_ok_iff.mp last).1
  | allowPublicListen =>
      obtain ⟨-, later⟩ := refuse_bind_eq_ok_iff.mp ok
      exact eq_false_of_ne_true (refuse_bind_eq_ok_iff.mp later).1
  | default =>
      obtain ⟨-, later⟩ := refuse_bind_eq_ok_iff.mp ok
      exact eq_false_of_ne_true (refuse_bind_eq_ok_iff.mp later).1
  | _ => rfl

/-- A second line of a kind that may occur once fails, whatever the first one was. -/
theorem accept_twice {fields fields' : List Str} {word : Keyword}
    (known : keyword fields = some word)
    (known' : keyword fields' = some word) (single : word ∈ Keyword.once) (s : ParseState η) :
    (accept platform root fields s).bind (accept platform root fields') = none := by
  rw [Option.bind_eq_none_iff]
  intro t first
  unfold accept at first ⊢
  rw [known] at first
  rw [known', Option.bind_some, Option.eq_none_iff_forall_ne_some]
  intro u second
  have seen := (directive_effect known (toOption_eq_some_iff.mp first)).seen single
  rw [directive_fresh (toOption_eq_some_iff.mp second)] at seen
  cases seen

/-- The kinds of lines that keep their order. -/
def orderedKinds : List (List Keyword) :=
  [[.listen], [.resolver], [.endpoint], [.hosts], [.rule, .blocklist]]

/-- Two kinds of one part are the same and occur once, or are both of an ordered kind. -/
theorem part_cases {word word' : Keyword} (same : word.part = word'.part) :
    (word = word' ∧ word ∈ Keyword.once) ∨ ∃ kind ∈ orderedKinds, word ∈ kind ∧ word' ∈ kind := by
  cases word <;> cases word' <;> first | (cases same; done) | simp [Keyword.once, orderedKinds]

variable (platform root) in
/-- Only lines of one ordered kind depend on each other. -/
theorem independent_of_kinds (fields fields' : List Str)
    (apart : ∀ kind ∈ orderedKinds.map isLine, kind fields = true → kind fields' = false) :
    Independent (accept platform root) (Similar (η := η)) fields' fields := by
  cases known : keyword fields with
  | none =>
      intro s
      have : (accept platform root fields' s).bind (accept platform root fields) = none :=
        Option.bind_eq_none_iff.mpr fun t _ => accept_unknown known t
      rw [this, accept_unknown known]
      exact .none
  | some word =>
      cases known' : keyword fields' with
      | none =>
          intro s
          have : (accept platform root fields s).bind (accept platform root fields') = none :=
            Option.bind_eq_none_iff.mpr fun t _ => accept_unknown known' t
          rw [this, accept_unknown known']
          exact .none
      | some word' =>
          by_cases same : word'.part = word.part
          · rcases part_cases same with ⟨rfl, single⟩ | ⟨kind, listed, member', member⟩
            · intro s
              rw [accept_twice known' known single, accept_twice known known' single]
              exact .none
            · have is : isLine kind fields = true := by simpa [isLine, known] using member
              have isnt := apart _ (List.mem_map_of_mem listed) is
              simp [isLine, known', member'] at isnt
          · exact independent_of_parts known' known same

/-! ### The end of the text -/

/-- The order of the references does not matter. -/
theorem finish_references {s : ParseState η} {references : List EndpointId}
    (perm : references.Perm s.referencedEndpoints) :
    (finish { s with referencedEndpoints := references }).toOption = (finish s).toOption := by
  refine toOption_bind_congr rfl fun _ => toOption_bind_congr rfl fun _ =>
      toOption_bind_congr rfl fun _ =>
    toOption_bind_congr rfl fun action => toOption_bind_congr rfl fun outbounds => ?_
  have alike : references.find? (fun id => !outbounds.contains id) = none ↔
      s.referencedEndpoints.find? (fun id => !outbounds.contains id) = none := by
    simp only [List.find?_eq_none, perm.mem_iff]
  dsimp only
  cases found : references.find? (fun id => !outbounds.contains id) with
  | none =>
      rw [alike.mp found]
      rfl
  | some id =>
      cases found' : s.referencedEndpoints.find? (fun id => !outbounds.contains id) with
      | none => rw [alike.mpr found'] at found; cases found
      | some id' => rfl

theorem finish_similar {s t : ParseState η} (similar : Similar s t) :
    (finish s).toOption = (finish t).toOption := by
  have exchanged :=
    congrArg (fun u : ParseState η =>
      { u with referencedEndpoints := s.referencedEndpoints }) similar.same
  have is : s = { t with referencedEndpoints := s.referencedEndpoints } := exchanged
  rw [is]
  exact finish_references similar.references

/-! ### The same lines -/

/-- The lines that are not empty are among what the line feeds separate. -/
theorem directives_lines (text : Str) :
    directives (lines text) = directives (text.splitOn '\n') := by
  have folded : ∀ raws : List Str, directives raws = raws.foldr
      (fun raw rest => if lineFields raw = [] then rest else lineFields raw :: rest) [] := by
    intro raws
    induction raws with
    | nil => rfl
    | cons raw raws ih =>
        rw [List.foldr_cons, ← ih]
        unfold directives
        by_cases empty : lineFields raw = []
        · simp [empty]
        · simp [empty]
  have bare : ∀ raw : Str, lineFields (raw ++ ['\r']) = lineFields raw := by
    intro raw
    unfold lineFields
    rw [trim_takeWhile_concat (by decide) (by decide)]
  rw [folded, folded]
  apply foldr_lines
  · intro raw
    rw [bare]
  · exact fun rest => rfl

/-- The same lines in another order: as they stand between line feeds, or as they are read, when no
end of a line was added or left out. -/
inductive SameLines (text text' : Str) : Prop where
  | pieces (perm : (text.splitOn '\n').Perm (text'.splitOn '\n')) : SameLines text text'
  | lines (perm : (lines text).Perm (lines text')) (size : byteLen text = byteLen text') :
      SameLines text text'

theorem SameLines.size {text text' : Str} (same : SameLines text text') :
    byteLen text = byteLen text' := by
  cases same with
  | lines perm size => exact size
  | pieces perm =>
      have total := (perm.map fun piece => byteLen piece + 1).sum_eq
      rw [← byteLen_splitOn rfl, ← byteLen_splitOn rfl] at total
      exact Nat.succ.inj total

theorem SameLines.directives {text text' : Str} (same : SameLines text text') :
    (directives (Lib.lines text)).Perm (directives (Lib.lines text')) := by
  cases same with
  | lines perm size => exact (perm.map _).filter _
  | pieces perm =>
      rw [directives_lines, directives_lines]
      exact (perm.map _).filter _

theorem linesOf_eq (kind : List Keyword) (text : Str) :
    linesOf kind text = (directives (lines text)).filter (isLine kind) := by
  unfold linesOf directives
  rw [List.filter_filter]
  congr 1
  funext fields
  cases fields with
  | nil => rfl
  | cons word rest => simp

/-- How directives of different kinds are interleaved does not matter: two texts that have the same
lines, and the lines of each ordered kind in the same order, are accepted alike and mean the
same. -/
theorem interleaving_irrelevant (platform : Platform η) (root : Str) {text text' : Str}
    (same : SameLines text text')
    (order : ∀ kind ∈ orderedKinds, linesOf kind text = linesOf kind text')
      (compiled : CompiledConfig η) :
    parseConfigAt platform text root = .ok compiled ↔
    parseConfigAt platform text' root = .ok compiled := by
  have order' : ∀ kind ∈ orderedKinds.map isLine,
      (directives (lines text)).filter kind = (directives (lines text')).filter kind := by
    intro kind listed
    obtain ⟨words, member, rfl⟩ := List.mem_map.mp listed
    rw [← linesOf_eq, ← linesOf_eq]
    exact order words member
  have alike :=
    readAll_reorder similar_equivalence accept_similar (independent_of_kinds platform root)
    same.directives order' {}
  rw [← parseLines_accept _ 1, ← parseLines_accept _ 1] at alike
  have results : (parseConfigAt platform text root).toOption =
      (parseConfigAt platform text' root).toOption := by
    unfold parseConfigAt
    rw [same.size]
    refine toOption_bind_congr rfl fun _ => ?_
    rw [toOption_bind, toOption_bind]
    exact OptionRel.bind_eq alike finish_similar
  rw [← toOption_eq_some_iff, ← toOption_eq_some_iff, results]

/-- A rule that precedes its endpoint. -/
def ruleFirst : Str :=
  "version 1\nrule proxy:a any\ndefault direct\nlisten http 127.0.0.1:80\nendpoint a http 10.0.0.1:80\n".toList

/-- The same lines in another order. -/
def ruleLast : Str :=
  "endpoint a http 10.0.0.1:80\nlisten http 127.0.0.1:80\nrule proxy:a any\ndefault direct\nversion 1\n".toList

theorem interleaving_irrelevant_example :
    ∃ compiled, parseConfigAt filePlatform ruleFirst ['/'] = .ok compiled ∧
    parseConfigAt filePlatform ruleLast ['/'] = .ok compiled := by
  have same : SameLines ruleFirst ruleLast := .pieces (by decide +kernel)
  have order : ∀ kind ∈ orderedKinds, linesOf kind ruleFirst = linesOf kind ruleLast := by
    decide +kernel
  have read : (parseConfigAt filePlatform ruleFirst ['/']).toOption.map
      (fun compiled => compiled.listeners.length) = some 1 := by decide +kernel
  obtain ⟨compiled, accepted, -⟩ := exists_ok_of_map read
  exact ⟨compiled, accepted,
    (interleaving_irrelevant filePlatform ['/'] same order compiled).mp accepted⟩

end Commeatus.Daemon
