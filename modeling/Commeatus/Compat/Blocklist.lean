import Commeatus.Core.DomainSet
import Commeatus.Lib.Fallible
import Commeatus.Lib.Net

/-!
Blocklists in foreign formats (`compat/src/lib.rs`).

Every line of a list is a hosts entry, a plain domain or an Adblock rule, or
says nothing. A list is compiled into a filter of two domain sets: what it
blocks and the exceptions from it.
-/

namespace Commeatus.Compat

open Commeatus.Lib Commeatus.Core

def maxBlocklistBytes : Nat := 8 * 1024 * 1024
def maxBlocklistEntries : Nat := 250000

structure BlocklistStats where
  sourceLines : Nat := 0
  acceptedBlock : Nat := 0
  acceptedAllow : Nat := 0
  ignored : Nat := 0
  deriving DecidableEq

structure CompiledBlocklist where
  filter : DomainFilter
  stats : BlocklistStats
  deriving DecidableEq

structure BlocklistError where
  line : Option Nat
  message : String
  deriving DecidableEq

inductive RuleKind where
  | blockExact | blockSuffix | allowSuffix
  deriving DecidableEq

def parseDomain (value : Str) (line : Nat) : Except BlocklistError Str :=
  let value := toAsciiLowercase (trimMatches '.' value)
  if value.isEmpty || decide (253 < byteLen value) || !isAscii value || !labelsOk value then
    .error ⟨some line, "invalid domain"⟩
  else .ok value

def isLocalhostAlias (value : Str) : Bool :=
  eqIgnoreAsciiCase value "localhost".toList ||
    eqIgnoreAsciiCase value "localhost.localdomain".toList ||
    eqIgnoreAsciiCase value "broadcasthost".toList ||
      eqIgnoreAsciiCase value "ip6-localhost".toList ||
    eqIgnoreAsciiCase value "ip6-loopback".toList

/-- The loop over the names of a hosts line. -/
def parseHostNames (line : Nat) : List Str → Option Str → Except BlocklistError (Option Str)
  | [], accepted => .ok accepted
  | host :: hosts, accepted =>
      if isLocalhostAlias host then parseHostNames line hosts accepted
      else if accepted.isSome then
        .error ⟨some line,
          "hosts lines must contain at most one non-localhost hostname in this alpha"⟩
      else do
        let domain ← parseDomain host line
        parseHostNames line hosts (some domain)

/-- A line that is no Adblock rule: a hosts entry or a plain domain. -/
def parsePlain (value : Str) (line : Nat) : Except BlocklistError (Option (RuleKind × Str)) :=
  match splitWhitespace (trim (value.takeWhile (· != '#'))) with
  | [] => .ok none
  | first :: fields =>
      if (IpAddr.parse first).isSome then do
        let accepted ← parseHostNames line fields none
        return accepted.map fun domain => (.blockExact, domain)
      else if !fields.isEmpty then
        .error ⟨some line,
          "unsupported blocklist syntax; expected one domain, hosts entry, `||domain^`, or `@@||domain^`"⟩
      else do
        let domain ← parseDomain first line
        return some (.blockExact, domain)

def parseLine (raw : Str) (line : Nat) : Except BlocklistError (Option (RuleKind × Str)) :=
  let value := trim raw
  if value.isEmpty || value.head? == some '#' || value.head? == some '!' then .ok none
  else
    match (stripFront "@@||".toList value).bind (stripBack '^') with
    | some domain => do
        let domain ← parseDomain domain line
        return some (.allowSuffix, domain)
    | none =>
        match (stripFront "||".toList value).bind (stripBack '^') with
        | some domain => do
            let domain ← parseDomain domain line
            return some (.blockSuffix, domain)
        | none => parsePlain value line

/-- What the loop over the lines collects. -/
structure Collected where
  blockedExact : List Str := []
  blockedSuffix : List Str := []
  allowedSuffix : List Str := []
  stats : BlocklistStats := {}

namespace Collected

def entries (c : Collected) : Nat :=
  c.blockedExact.length + c.blockedSuffix.length + c.allowedSuffix.length

/-- An entry joins its list. -/
def push (c : Collected) (domain : Str) : RuleKind → Collected
  | .blockExact =>
      { c with
        blockedExact := c.blockedExact ++ [domain]
        stats := { c.stats with acceptedBlock := c.stats.acceptedBlock + 1 } }
  | .blockSuffix =>
      { c with
        blockedSuffix := c.blockedSuffix ++ [domain]
        stats := { c.stats with acceptedBlock := c.stats.acceptedBlock + 1 } }
  | .allowSuffix =>
      { c with
        allowedSuffix := c.allowedSuffix ++ [domain]
        stats := { c.stats with acceptedAllow := c.stats.acceptedAllow + 1 } }

end Collected

def enforceEntryLimit (current line : Nat) : Except BlocklistError Unit :=
  if maxBlocklistEntries ≤ current then .error ⟨some line, "entry count exceeds 250000"⟩ else .ok ()

/-- One line, with its number counted from one. -/
def collectLine (c : Collected) (raw : Str) (line : Nat) : Except BlocklistError Collected := do
  let c := { c with stats := { c.stats with sourceLines := c.stats.sourceLines + 1 } }
  match ← parseLine raw line with
  | some (kind, domain) =>
      enforceEntryLimit c.entries line
      return c.push domain kind
  | none => return { c with stats := { c.stats with ignored := c.stats.ignored + 1 } }

/-- The loop over the lines; the number of the first is given. -/
def collect : List Str → Nat → Collected → Except BlocklistError Collected
  | [], _, c => .ok c
  | raw :: raws, line, c => do
      let c ← collectLine c raw line
      collect raws (line + 1) c

/-- A failure of the set compiler has no line. -/
def compileSet (exact suffixes : List Str) : Except BlocklistError DomainSet :=
  match DomainSet.compile exact suffixes with
  | .ok set => .ok set
  | .error e => .error ⟨none, String.ofList e.message⟩

def compileBlocklist (text : Str) : Except BlocklistError CompiledBlocklist :=
  if maxBlocklistBytes < byteLen text then .error ⟨none, "blocklist exceeds 8388608 byte limit"⟩
  else do
    let c ← collect (lines text) 1 {}
    let blocked ← compileSet c.blockedExact c.blockedSuffix
    let allowed ← compileSet [] c.allowedSuffix
    return ⟨⟨blocked, allowed⟩, c.stats⟩

/-! ### What a line says -/

/-- The line is read as the given entry, or as none, whatever its number. -/
def Says (raw : Str) (entry : Option (RuleKind × Str)) : Prop :=
  ∀ line, parseLine raw line = .ok entry

/-- The entry of a line that has one. -/
def entryOf (raw : Str) : Option (RuleKind × Str) :=
  match parseLine raw 1 with
  | .ok entry => entry
  | .error _ => none

theorem parseDomain_line {value domain : Str} {line : Nat}
    (parsed : parseDomain value line = .ok domain) (n : Nat) :
    parseDomain value n = .ok domain := by
  unfold parseDomain at parsed ⊢
  dsimp only at parsed ⊢
  split at parsed
  · cases parsed
  · rename_i valid
    rw [if_neg valid]
    exact parsed

theorem parseHostNames_line {line : Nat} {hosts : List Str} {start result : Option Str}
    (parsed : parseHostNames line hosts start = .ok result) (n : Nat) :
    parseHostNames n hosts start = .ok result := by
  induction hosts generalizing start with
  | nil => exact parsed
  | cons host hosts ih =>
      unfold parseHostNames at parsed ⊢
      by_cases localhost : isLocalhostAlias host = true
      · rw [if_pos localhost] at parsed ⊢
        exact ih parsed
      · rw [if_neg localhost] at parsed ⊢
        by_cases second : start.isSome = true
        · rw [if_pos second] at parsed
          cases parsed
        · rw [if_neg second] at parsed ⊢
          obtain ⟨domain, first, rest⟩ := bind_eq_ok_iff.mp parsed
          exact bind_eq_ok_iff.mpr ⟨domain, parseDomain_line first n, ih rest⟩

theorem parsePlain_line {value : Str} {line : Nat} {entry : Option (RuleKind × Str)}
    (parsed : parsePlain value line = .ok entry) (n : Nat) : parsePlain value n = .ok entry := by
  unfold parsePlain at parsed ⊢
  split at parsed
  · exact parsed
  · rename_i first fields split
    by_cases address : (IpAddr.parse first).isSome = true
    · rw [if_pos address] at parsed ⊢
      obtain ⟨accepted, names, rest⟩ := bind_eq_ok_iff.mp parsed
      exact bind_eq_ok_iff.mpr ⟨accepted, parseHostNames_line names n, rest⟩
    · rw [if_neg address] at parsed ⊢
      by_cases more : (!fields.isEmpty) = true
      · rw [if_pos more] at parsed
        cases parsed
      · rw [if_neg more] at parsed ⊢
        obtain ⟨domain, name, rest⟩ := bind_eq_ok_iff.mp parsed
        exact bind_eq_ok_iff.mpr ⟨domain, parseDomain_line name n, rest⟩

/-- A line that is read is read the same at any place. -/
theorem Says.of_parseLine {raw : Str} {line : Nat} {entry : Option (RuleKind × Str)}
    (parsed : parseLine raw line = .ok entry) : Says raw entry := by
  intro n
  have rule : ∀ {value : Str} {kind : RuleKind},
      (do let domain ← parseDomain value line; return some (kind, domain)) = Except.ok entry →
        (do let domain ← parseDomain value n; return some (kind, domain)) = Except.ok entry := by
    intro value kind parsed
    obtain ⟨domain, name, rest⟩ := bind_eq_ok_iff.mp parsed
    exact bind_eq_ok_iff.mpr ⟨domain, parseDomain_line name n, rest⟩
  unfold parseLine at parsed ⊢
  dsimp only at parsed ⊢
  split
  · rename_i ignored
    rw [if_pos ignored] at parsed
    exact parsed
  · rename_i kept
    rw [if_neg kept] at parsed
    split
    · rename_i allowed
      rw [allowed] at parsed
      exact rule parsed
    · rename_i blocks
      rw [blocks] at parsed
      dsimp only at parsed
      split
      · rename_i blocked
        rw [blocked] at parsed
        exact rule parsed
      · rename_i plain
        rw [plain] at parsed
        exact parsePlain_line parsed n

theorem entryOf_eq_some_iff {raw : Str} {entry : RuleKind × Str} : entryOf raw = some entry ↔
    Says raw (some entry) := by
  unfold entryOf
  constructor
  · intro found
    split at found
    · rename_i entry' parsed
      rw [found] at parsed
      exact Says.of_parseLine parsed
    · cases found
  · intro meant
    rw [meant 1]

theorem entryOf_eq_none {raw : Str} (meant : Says raw none) : entryOf raw = none := by
  unfold entryOf
  rw [meant 1]

/-- The domains that the lines list under a kind, in their order. -/
def listed (kind : RuleKind) (raws : List Str) : List Str :=
  (raws.filterMap entryOf).filterMap fun entry => if entry.1 = kind then some entry.2 else none

theorem mem_listed {kind : RuleKind} {raws : List Str} {domain : Str} :
    domain ∈ listed kind raws ↔ ∃ raw ∈ raws, Says raw (some (kind, domain)) := by
  unfold listed
  constructor
  · intro member
    obtain ⟨⟨kind', domain'⟩, entry, kept⟩ := List.mem_filterMap.mp member
    obtain ⟨raw, line, meant⟩ := List.mem_filterMap.mp entry
    dsimp only at kept
    split at kept
    · rename_i same
      cases same
      cases kept
      exact ⟨raw, line, entryOf_eq_some_iff.mp meant⟩
    · cases kept
  · rintro ⟨raw, line, meant⟩
    apply List.mem_filterMap.mpr
    exact ⟨(kind, domain), List.mem_filterMap.mpr ⟨raw, line, entryOf_eq_some_iff.mpr meant⟩,
      if_pos rfl⟩

theorem listed_cons_none {raw : Str} (meant : Says raw none) (kind : RuleKind) (raws : List Str) :
    listed kind (raw :: raws) = listed kind raws := by
  unfold listed
  rw [List.filterMap_cons_none (entryOf_eq_none meant)]

theorem listed_cons_some {raw domain : Str} {kind : RuleKind}
    (meant : Says raw (some (kind, domain))) (k : RuleKind)
    (raws : List Str) : listed k (raw :: raws) = (if kind = k then [domain] else []) ++
      listed k raws := by
  unfold listed
  rw [List.filterMap_cons_some (entryOf_eq_some_iff.mpr meant)]
  by_cases same : kind = k
  · simp [same]
  · simp [same]

/-! ### The loop over the lines -/

/-- What has been collected of a kind. -/
def Collected.held (c : Collected) : RuleKind → List Str
  | .blockExact => c.blockedExact
  | .blockSuffix => c.blockedSuffix
  | .allowSuffix => c.allowedSuffix

theorem Collected.held_push (c : Collected) (domain : Str) (kind k : RuleKind) :
    (c.push domain kind).held k = c.held k ++ if kind = k then [domain] else [] := by
  cases kind <;> cases k <;> simp [push, held]

@[simp] theorem Collected.entries_push (c : Collected) (domain : Str) (kind : RuleKind) :
    (c.push domain kind).entries = c.entries + 1 := by
  cases kind <;> simp only [push, entries, List.length_append, List.length_singleton] <;> omega

theorem enforceEntryLimit_eq_ok_iff {current line : Nat} {u : Unit} :
    enforceEntryLimit current line = .ok u ↔ current < maxBlocklistEntries := by
  unfold enforceEntryLimit
  split
  · rename_i full
    simp [full]
  · rename_i room
    simp [Nat.lt_of_not_le room]

/-- A line that says nothing is counted; an entry joins its list while there is room. -/
theorem collectLine_cases {c c' : Collected} {raw : Str} {line : Nat}
    (collected : collectLine c raw line = .ok c') :
    (Says raw none ∧ c'.entries = c.entries ∧ ∀ k, c'.held k = c.held k) ∨
      ∃ kind domain, Says raw (some (kind, domain)) ∧ c.entries < maxBlocklistEntries ∧
        c'.entries = c.entries + 1 ∧
        ∀ k, c'.held k = c.held k ++ if kind = k then [domain] else [] := by
  unfold collectLine at collected
  obtain ⟨entry, parsed, rest⟩ := bind_eq_ok_iff.mp collected
  match entry with
  | none =>
      cases rest
      exact .inl ⟨Says.of_parseLine parsed, rfl, fun k => by cases k <;> rfl⟩
  | some (kind, domain) =>
      obtain ⟨u, room, pushed⟩ := bind_eq_ok_iff.mp rest
      cases pushed
      right
      refine ⟨kind, domain, Says.of_parseLine parsed,
        enforceEntryLimit_eq_ok_iff.mp room, ?_, fun k => ?_⟩
      · rw [Collected.entries_push]
        rfl
      · rw [Collected.held_push]
        cases k <;> rfl

/-- The loop collects what the lines list, and never more than there is room for. -/
theorem collect_ok {raws : List Str} {line : Nat} {c c' : Collected}
    (collected : collect raws line c = .ok c') :
    (∀ raw ∈ raws, ∃ entry, Says raw entry) ∧ (∀ k, c'.held k = c.held k ++ listed k raws) ∧
      c'.entries = c.entries + (raws.filterMap entryOf).length ∧
      (c.entries ≤ maxBlocklistEntries → c'.entries ≤ maxBlocklistEntries) := by
  induction raws generalizing line c with
  | nil =>
      cases collected
      refine ⟨fun raw no => absurd no List.not_mem_nil, fun k => ?_, rfl, id⟩
      exact (List.append_nil _).symm
  | cons raw raws ih =>
      obtain ⟨c₁, first, rest⟩ := bind_eq_ok_iff.mp collected
      obtain ⟨say, held, count, room⟩ := ih rest
      have sayAll : ∀ {entry}, Says raw entry → ∀ raw' ∈ raw :: raws, ∃ entry, Says raw' entry := by
        intro entry meant raw' member
        rcases List.mem_cons.mp member with rfl | later
        · exact ⟨entry, meant⟩
        · exact say raw' later
      rcases collectLine_cases first with ⟨meant, same, kept⟩ | ⟨kind, domain, meant,
        fits, more, added⟩
      · refine ⟨sayAll meant, fun k => ?_, ?_, fun few => room (same ▸ few)⟩
        · rw [held, kept, listed_cons_none meant]
        · rw [count, same, List.filterMap_cons_none (entryOf_eq_none meant)]
      · refine ⟨sayAll meant, fun k => ?_, ?_, fun few => room (more ▸ fits)⟩
        · rw [held, added, listed_cons_some meant, List.append_assoc]
        · rw [count, more, List.filterMap_cons_some (entryOf_eq_some_iff.mpr meant),
            List.length_cons]
          omega

theorem collectLine_succeeds {c : Collected} {raw : Str} {entry : Option (RuleKind × Str)}
    (meant : Says raw entry)
    (room : entry.isSome → c.entries < maxBlocklistEntries) (line : Nat) :
    ∃ c', collectLine c raw line = .ok c' := by
  match entry with
  | none => exact ⟨_, bind_eq_ok_iff.mpr ⟨none, meant line, rfl⟩⟩
  | some (kind, domain) =>
      have fits : enforceEntryLimit c.entries line = .ok () :=
        enforceEntryLimit_eq_ok_iff.mpr (room rfl)
      exact ⟨_, bind_eq_ok_iff.mpr ⟨some (kind, domain), meant line,
        bind_eq_ok_iff.mpr ⟨(), fits, rfl⟩⟩⟩

/-- Lines that can all be read and whose entries all fit are collected. -/
theorem collect_succeeds {raws : List Str} {c : Collected}
    (say : ∀ raw ∈ raws, ∃ entry, Says raw entry)
    (room : c.entries + (raws.filterMap entryOf).length ≤ maxBlocklistEntries) (line : Nat) :
    ∃ c', collect raws line c = .ok c' := by
  induction raws generalizing line c with
  | nil => exact ⟨c, rfl⟩
  | cons raw raws ih =>
      obtain ⟨entry, meant⟩ := say raw List.mem_cons_self
      have fits : entry.isSome → c.entries < maxBlocklistEntries := by
        intro some
        obtain ⟨e, rfl⟩ := Option.isSome_iff_exists.mp some
        rw [List.filterMap_cons_some (entryOf_eq_some_iff.mpr meant), List.length_cons] at room
        omega
      obtain ⟨c₁, first⟩ := collectLine_succeeds meant fits line
      have left : c₁.entries + (raws.filterMap entryOf).length ≤ maxBlocklistEntries := by
        rcases collectLine_cases first with ⟨meant, same, -⟩ | ⟨kind, domain, meant, -, more, -⟩
        · rw [List.filterMap_cons_none (entryOf_eq_none meant)] at room
          omega
        · rw [List.filterMap_cons_some (entryOf_eq_some_iff.mpr meant), List.length_cons] at room
          omega
      obtain ⟨c', rest⟩ :=
        ih (fun raw' later => say raw' (List.mem_cons_of_mem _ later)) left (line + 1)
      exact ⟨c', bind_eq_ok_iff.mpr ⟨c₁, first, rest⟩⟩

/-! ### The two normalisations agree -/

theorem normalizeSetDomain_of_parseDomain {value domain : Str} {line : Nat}
    (parsed : parseDomain value line = .ok domain) :
    normalizeSetDomain domain = .ok domain := by
  unfold parseDomain at parsed
  dsimp only at parsed
  split at parsed
  · cases parsed
  · rename_i valid
    cases parsed
    unfold normalizeSetDomain
    dsimp only
    rw [lowercase_trimMatches_idem (by decide)]
    exact if_neg valid

theorem parseHostNames_domain {line : Nat} {hosts : List Str} {start : Option Str} {domain : Str}
    (parsed : parseHostNames line hosts start = .ok (some domain)) :
    start = some domain ∨ ∃ host, parseDomain host line = .ok domain := by
  induction hosts generalizing start with
  | nil =>
      cases parsed
      exact .inl rfl
  | cons host hosts ih =>
      unfold parseHostNames at parsed
      split at parsed
      · exact ih parsed
      · split at parsed
        · cases parsed
        · obtain ⟨first, name, rest⟩ := bind_eq_ok_iff.mp parsed
          rcases ih rest with same | later
          · cases same
            exact .inr ⟨host, name⟩
          · exact .inr later

/-- Whatever a line lists has gone through the line parser's normalisation. -/
theorem parseLine_domain {raw domain : Str} {line : Nat} {kind : RuleKind}
    (parsed : parseLine raw line = .ok (some (kind, domain))) :
    ∃ value, parseDomain value line = .ok domain := by
  have rule : ∀ {value : Str} {kind' : RuleKind},
      (do let domain ← parseDomain value line; return some (kind', domain)) =
        Except.ok (some (kind, domain)) →
        ∃ value, parseDomain value line = .ok domain := by
    intro value kind' parsed
    obtain ⟨domain', name, rest⟩ := bind_eq_ok_iff.mp parsed
    cases rest
    exact ⟨value, name⟩
  unfold parseLine at parsed
  dsimp only at parsed
  split at parsed
  · cases parsed
  split at parsed
  · exact rule parsed
  split at parsed
  · exact rule parsed
  unfold parsePlain at parsed
  split at parsed
  · cases parsed
  split at parsed
  · obtain ⟨accepted, names, rest⟩ := bind_eq_ok_iff.mp parsed
    cases accepted with
    | none => cases rest
    | some domain' =>
        cases rest
        rcases parseHostNames_domain names with no | found
        · cases no
        · exact found
  · split at parsed
    · cases parsed
    · exact rule parsed

theorem normalizeSetDomain_of_listed {raws : List Str} {kind : RuleKind} {domain : Str}
    (member : domain ∈ listed kind raws) :
    normalizeSetDomain domain = .ok domain := by
  obtain ⟨raw, -, meant⟩ := mem_listed.mp member
  obtain ⟨value, parsed⟩ := parseLine_domain (meant 1)
  exact normalizeSetDomain_of_parseDomain parsed

/-- The set compiler rejects nothing that is normalised already, and changes nothing but order and
repetition. -/
theorem compileSet_of_normalised {exact suffixes : List Str}
    (he : ∀ d ∈ exact, normalizeSetDomain d = .ok d)
    (hs : ∀ d ∈ suffixes, normalizeSetDomain d = .ok d) :
    compileSet exact suffixes =
      .ok ⟨sortDedup exact, sortDedup suffixes, sortDedup_sorted exact,
        sortDedup_sorted suffixes⟩ := by
  unfold compileSet DomainSet.compile
  rw [mapM_eq_ok_self he, mapM_eq_ok_self hs]
  rfl

/-- The filter of the given lines. -/
def filterOf (raws : List Str) : DomainFilter where
  blocked :=
    ⟨sortDedup (listed .blockExact raws), sortDedup (listed .blockSuffix raws), sortDedup_sorted _,
      sortDedup_sorted _⟩
  allowed :=
    ⟨sortDedup [], sortDedup (listed .allowSuffix raws), sortDedup_sorted _, sortDedup_sorted _⟩

/-- What acceptance means, and the filter that comes of it. -/
theorem compileBlocklist_ok {text : Str} {compiled : CompiledBlocklist}
    (accepted : compileBlocklist text = .ok compiled) :
    byteLen text ≤ maxBlocklistBytes ∧ (∀ raw ∈ lines text, ∃ entry, Says raw entry) ∧
      ((lines text).filterMap entryOf).length ≤ maxBlocklistEntries ∧
      compiled.filter = filterOf (lines text) := by
  unfold compileBlocklist at accepted
  split at accepted
  · cases accepted
  rename_i small
  obtain ⟨c, collected, rest⟩ := bind_eq_ok_iff.mp accepted
  obtain ⟨blocked, compiledBlocked, rest⟩ := bind_eq_ok_iff.mp rest
  obtain ⟨allowed, compiledAllowed, rest⟩ := bind_eq_ok_iff.mp rest
  obtain ⟨say, held, count, room⟩ := collect_ok collected
  have exact : c.blockedExact = listed .blockExact (lines text) := held .blockExact
  have suffix : c.blockedSuffix = listed .blockSuffix (lines text) := held .blockSuffix
  have allow : c.allowedSuffix = listed .allowSuffix (lines text) := held .allowSuffix
  rw [exact, suffix, compileSet_of_normalised (fun _ => normalizeSetDomain_of_listed)
    (fun _ => normalizeSetDomain_of_listed)] at compiledBlocked
  rw [allow, compileSet_of_normalised (fun _ no => absurd no List.not_mem_nil)
    (fun _ => normalizeSetDomain_of_listed)] at compiledAllowed
  cases compiledBlocked
  cases compiledAllowed
  cases rest
  refine ⟨Nat.le_of_not_lt small, say, ?_, rfl⟩
  have few : c.entries ≤ maxBlocklistEntries := room (Nat.zero_le _)
  have none : ({} : Collected).entries = 0 := rfl
  omega

theorem compileBlocklist_succeeds {text : Str} (small : byteLen text ≤ maxBlocklistBytes)
    (say : ∀ raw ∈ lines text, ∃ entry, Says raw entry)
    (few : ((lines text).filterMap entryOf).length ≤ maxBlocklistEntries) :
    ∃ compiled, compileBlocklist text = .ok compiled := by
  have none : ({} : Collected).entries = 0 := rfl
  obtain ⟨c, collected⟩ := collect_succeeds (c := {}) say (by omega) 1
  obtain ⟨-, held, -⟩ := collect_ok collected
  have normalised : ∀ kind, ∀ d ∈ c.held kind, normalizeSetDomain d = .ok d := by
    intro kind d member
    rw [held kind] at member
    rcases List.mem_append.mp member with no | member
    · cases kind <;> cases no
    · exact normalizeSetDomain_of_listed member
  have blocked := compileSet_of_normalised (normalised .blockExact) (normalised .blockSuffix)
  have allowed :=
    compileSet_of_normalised (fun _ no => absurd no List.not_mem_nil) (normalised .allowSuffix)
  unfold compileBlocklist
  rw [if_neg (Nat.not_lt.mpr small)]
  exact ⟨_, bind_eq_ok_iff.mpr
    ⟨c, collected, bind_eq_ok_iff.mpr ⟨_, blocked, bind_eq_ok_iff.mpr ⟨_, allowed, rfl⟩⟩⟩⟩

/-! ### Compilation keeps the meaning -/

/-- The lines block the domain: one lists it, or lists a suffix of it at a label boundary. -/
def Blocks (raws : List Str) (domain : Str) : Prop :=
  ∃ raw ∈ raws, Says raw (some (.blockExact, domain)) ∨
    ∃ suffix, Says raw (some (.blockSuffix, suffix)) ∧ LabelSuffix suffix domain

/-- The lines make an exception for the domain. -/
def Allows (raws : List Str) (domain : Str) : Prop :=
  ∃ raw ∈ raws, ∃ suffix, Says raw (some (.allowSuffix, suffix)) ∧ LabelSuffix suffix domain

theorem isBlocked_filterOf {raws : List Str} {domain : Str} (ne : domain ≠ [])
    (short : byteLen domain ≤ maxDomainLength)
    (ascii : isAscii domain = true) (undotted : domain.getLast? ≠ some '.') :
    (filterOf raws).isBlocked domain = true ↔ Blocks raws domain ∧ ¬ Allows raws domain := by
  have blocks : (filterOf raws).blocked.matchesDomain domain = true ↔ Blocks raws domain := by
    rw [DomainSet.matchesDomain_iff ne short ascii undotted]
    simp only [filterOf, mem_sortDedup, mem_listed]
    constructor
    · rintro (⟨raw, line, meant⟩ | ⟨suffix, ⟨raw, line, meant⟩, label⟩)
      · exact ⟨raw, line, .inl meant⟩
      · exact ⟨raw, line, .inr ⟨suffix, meant, label⟩⟩
    · rintro ⟨raw, line, meant | ⟨suffix, meant, label⟩⟩
      · exact .inl ⟨raw, line, meant⟩
      · exact .inr ⟨suffix, ⟨raw, line, meant⟩, label⟩
  have allows : (filterOf raws).allowed.matchesDomain domain = true ↔ Allows raws domain := by
    rw [DomainSet.matchesDomain_iff ne short ascii undotted]
    simp only [filterOf, mem_sortDedup, mem_listed]
    constructor
    · rintro (no | ⟨suffix, ⟨raw, line, meant⟩, label⟩)
      · cases no
      · exact ⟨raw, line, suffix, meant, label⟩
    · rintro ⟨raw, line, suffix, meant, label⟩
      exact .inr ⟨suffix, ⟨raw, line, meant⟩, label⟩
  rw [DomainFilter.isBlocked, Bool.and_eq_true,
    Bool.not_eq_true', ← Bool.not_eq_true, blocks, allows]

theorem filterOf_congr {raws raws' : List Str} (same : ∀ raw, raw ∈ raws ↔ raw ∈ raws') :
    filterOf raws = filterOf raws' := by
  have listed : ∀ kind, sortDedup (listed kind raws) = sortDedup (listed kind raws') := by
    intro kind
    apply sortDedup_congr
    intro domain
    simp only [mem_listed, same]
  unfold filterOf
  simp only [listed]

/-- Compilation succeeds exactly for a text within the byte limit whose lines can all be read and
have at most 250000 entries. The filter then blocks what a line blocks and none makes an exception
for, whatever the order and the repetition of the lines. -/
theorem blocklist_keeps_meaning (text : Str) :
    ((∃ compiled, compileBlocklist text = .ok compiled) ↔
      byteLen text ≤ maxBlocklistBytes ∧ (∀ raw ∈ lines text, ∃ entry, Says raw entry) ∧
        ((lines text).filterMap entryOf).length ≤ maxBlocklistEntries) ∧
    ∀ compiled, compileBlocklist text = .ok compiled →
      (∀ domain : Str, domain ≠ [] → byteLen domain ≤ 253 → isAscii domain = true →
        toAsciiLowercase domain = domain →
        domain.getLast? ≠ some '.' →
          (compiled.filter.isBlocked domain = true ↔
            Blocks (lines text) domain ∧ ¬ Allows (lines text) domain)) ∧
      ∀ text' compiled', compileBlocklist text' = .ok compiled' →
        (∀ raw, raw ∈ lines text ↔ raw ∈ lines text') →
        compiled.filter = compiled'.filter := by
  refine ⟨⟨?_, ?_⟩, ?_⟩
  · rintro ⟨compiled, accepted⟩
    obtain ⟨small, say, few, -⟩ := compileBlocklist_ok accepted
    exact ⟨small, say, few⟩
  · rintro ⟨small, say, few⟩
    exact compileBlocklist_succeeds small say few
  · intro compiled accepted
    obtain ⟨-, -, -, filter⟩ := compileBlocklist_ok accepted
    constructor
    · intro domain ne short ascii _ undotted
      rw [filter]
      exact isBlocked_filterOf ne short ascii undotted
    · intro text' compiled' accepted' same
      obtain ⟨-, -, -, filter'⟩ := compileBlocklist_ok accepted'
      rw [filter, filter']
      exact filterOf_congr same

def sampleList : Str := "||ads.example^\n@@||ok.ads.example^\n0.0.0.0 tracker.example".toList

theorem blocklist_keeps_meaning_example :
    ∃ compiled, compileBlocklist sampleList = .ok compiled ∧
      Blocks (lines sampleList) "x.ads.example".toList ∧
      ¬ Allows (lines sampleList) "x.ads.example".toList := by
  have run : (compileBlocklist sampleList).toOption.any
      (fun compiled => compiled.filter.isBlocked "x.ads.example".toList) = true := by decide +kernel
  obtain ⟨compiled, accepted, blocked⟩ := (Option.any_eq_true _ _).mp run
  have accepted : compileBlocklist sampleList = .ok compiled := by
    cases result : compileBlocklist sampleList with
    | error e =>
        rw [result] at accepted
        cases accepted
    | ok found =>
        rw [result] at accepted
        cases accepted
        rfl
  have meaning :=
    ((blocklist_keeps_meaning sampleList).2 compiled accepted).1 "x.ads.example".toList (by decide)
    (by decide) (by decide) (by decide) (by decide)
  exact ⟨compiled, accepted, meaning.mp blocked⟩

end Commeatus.Compat
