import Commeatus.Compat.Blocklist

/-!
The forms of blocklist lines.

A list is meant to hold hosts entries, host names, suffix rules and exceptions,
and to be refused when a line is something else. What the parser takes for a
name may have any ASCII characters, though, so lines in other formats pass as
names.
-/

namespace Commeatus.Compat

open Commeatus.Lib Commeatus.Core

/-! ### The forms -/

/-- A line that is blank or a comment. -/
def Remark (raw : Str) : Prop := trim raw = [] ∨ (trim raw).head? = some '#' ∨
    (trim raw).head? = some '!'

/-- A line without the white space around it and its comment. -/
def content (raw : Str) : Str := trim ((trim raw).takeWhile (· != '#'))

/-- How a host name is listed: in lower case, without dots around it. -/
def normal (host : Str) : Str := toAsciiLowercase (trimMatches '.' host)

def isLabelChar (c : Char) : Bool := c.isAlphanum || c == '-' || c == '_'

/-- Labels of letters, digits, hyphens and underscores, separated by dots. -/
def HostName (name : Str) : Prop := ∀ label ∈ name.splitOn '.', label ≠ [] ∧
    ∀ c ∈ label, isLabelChar c = true

/-- The names of a hosts line that count. -/
def visible (names : List Str) : List Str := names.filter fun name => !isLocalhostAlias name

/-- The text between the marks of a rule. -/
def marked (front : String) (host : Str) : Str := front.toList ++ (host ++ ['^'])

/-- The supported forms, each with the rule it stands for. -/
inductive Form : Str → Option (RuleKind × Str) → Prop where
  | address {text address : Str} {names : List Str}
      (fields : splitWhitespace text = address :: names)
      (is : (IpAddr.parse address).isSome = true) (empty : visible names = []) : Form text none
  | hosts {text address host : Str} {names : List Str}
      (fields : splitWhitespace text = address :: names)
      (is : (IpAddr.parse address).isSome = true) (one : visible names = [host])
        (name : HostName (normal host)) :
      Form text (some (.blockExact, normal host))
  | plain {text host : Str} (fields : splitWhitespace text = [host])
      (isnt : (IpAddr.parse host).isSome = false)
      (name : HostName (normal host)) : Form text (some (.blockExact, normal host))
  | block {host : Str} (name : HostName (normal host)) :
      Form (marked "||" host) (some (.blockSuffix, normal host))
  | allow {host : Str} (name : HostName (normal host)) :
      Form (marked "@@||" host) (some (.allowSuffix, normal host))

theorem Form.hostName {text name : Str} {kind : RuleKind} (form : Form text (some (kind, name))) :
    HostName name := by
  cases form <;> assumption

/-- The names of the compiled filter under a kind. -/
def CompiledBlocklist.rules (compiled : CompiledBlocklist) : RuleKind → List Str
  | .blockExact => compiled.filter.blocked.exact
  | .blockSuffix => compiled.filter.blocked.suffixes
  | .allowSuffix => compiled.filter.allowed.suffixes

/-- Every line that is not left out has one of the forms and adds the rule of that form; there are
no other rules. -/
structure Conforms (text : Str) (compiled : CompiledBlocklist) : Prop where
  formed : ∀ raw ∈ lines text, ¬ Remark raw → ∃ entry, Form (content raw) entry ∧ Says raw entry ∧
    ∀ kind name, entry = some (kind, name) → name ∈ compiled.rules kind
  only : ∀ kind name, name ∈ compiled.rules kind → ∃ raw ∈ lines text, ¬ Remark raw ∧
    Form (content raw) (some (kind, name))

/-! ### What a line is taken for -/

/-- What a line gives as the name of a rule: the text between marks, the name after an address, or
its only word. -/
inductive Reading (raw : Str) : Option (RuleKind × Str) → Prop where
  | remark (ignored : Remark raw) : Reading raw none
  | allow {host : Str} (is : trim raw = marked "@@||" host) :
      Reading raw (some (.allowSuffix, host))
  | block {host : Str} (is : trim raw = marked "||" host) : Reading raw (some (.blockSuffix, host))
  | address {address : Str} {names : List Str} (kept : ¬ Remark raw)
      (unmarked : ∀ host, trim raw ≠ marked "@@||" host ∧ trim raw ≠ marked "||" host)
      (fields : splitWhitespace (content raw) = address :: names)
        (is : (IpAddr.parse address).isSome = true)
      (empty : visible names = []) : Reading raw none
  | host {address host : Str} {names : List Str} (kept : ¬ Remark raw)
      (unmarked : ∀ host, trim raw ≠ marked "@@||" host ∧ trim raw ≠ marked "||" host)
      (fields : splitWhitespace (content raw) = address :: names)
        (is : (IpAddr.parse address).isSome = true)
      (one : visible names = [host]) : Reading raw (some (.blockExact, host))
  | word {host : Str} (kept : ¬ Remark raw)
      (unmarked : ∀ host, trim raw ≠ marked "@@||" host ∧ trim raw ≠ marked "||" host)
      (fields : splitWhitespace (content raw) = [host])
        (isnt : (IpAddr.parse host).isSome = false) :
      Reading raw (some (.blockExact, host))

/-- What the compiler asks of a name. -/
def Domain (host : Str) : Prop :=
  normal host ≠ [] ∧ byteLen (normal host) ≤ 253 ∧ isAscii (normal host) = true ∧
    labelsOk (normal host) = true

theorem parseDomain_eq_ok_iff {value domain : Str} {line : Nat} :
    parseDomain value line = .ok domain ↔ Domain value ∧ domain = normal value := by
  unfold parseDomain Domain normal
  dsimp only
  split
  · rename_i bad
    constructor
    · intro no
      cases no
    · rintro ⟨⟨some, short, ascii, labels⟩, -⟩
      simp only [List.isEmpty_iff, some, ascii, labels, Bool.not_true, decide_false, Bool.or_false,
        Nat.not_lt.mpr short] at bad
  · rename_i fine
    simp only [Bool.or_eq_true, not_or, decide_eq_true_eq, Nat.not_lt, Bool.not_eq_true',
      Bool.not_eq_false, List.isEmpty_iff] at fine
    constructor
    · rintro ⟨⟩
      exact ⟨⟨fine.1.1.1, fine.1.1.2, fine.1.2, fine.2⟩, rfl⟩
    · rintro ⟨-, rfl⟩
      rfl

theorem visible_cons (name : Str) (names : List Str) :
    visible (name :: names) = if isLocalhostAlias name = true then visible names
      else name :: visible names := by
  unfold visible
  by_cases localhost : isLocalhostAlias name = true
  · simp [localhost]
  · simp [localhost]

theorem parseHostNames_some_iff {line : Nat} {names : List Str} {domain : Str}
    {result : Option Str} :
    parseHostNames line names (some domain) = .ok result ↔ visible names = [] ∧
    result = some domain := by
  induction names with
  | nil =>
      constructor
      · rintro ⟨⟩
        exact ⟨rfl, rfl⟩
      · rintro ⟨-, rfl⟩
        rfl
  | cons name names ih =>
      rw [parseHostNames, visible_cons]
      by_cases localhost : isLocalhostAlias name = true
      · rw [if_pos localhost, if_pos localhost, ih]
      · rw [if_neg localhost, if_neg localhost]
        constructor
        · intro no
          cases no
        · rintro ⟨no, -⟩
          cases no

/-- The loop over the names of a hosts line accepts at most one that counts. -/
theorem parseHostNames_none_iff {line : Nat} {names : List Str} {result : Option Str} :
    parseHostNames line names none = .ok result ↔ (visible names = [] ∧ result = none) ∨
      ∃ host, visible names = [host] ∧ Domain host ∧ result = some (normal host) := by
  induction names with
  | nil =>
      constructor
      · rintro ⟨⟩
        exact .inl ⟨rfl, rfl⟩
      · rintro (⟨-, rfl⟩ | ⟨host, no, -⟩)
        · rfl
        · cases no
  | cons name names ih =>
      rw [parseHostNames, visible_cons]
      by_cases localhost : isLocalhostAlias name = true
      · rw [if_pos localhost, if_pos localhost, ih]
      · rw [if_neg localhost, if_neg localhost]
        change (do let domain ← parseDomain name line; parseHostNames line names (some domain)) =
          .ok result ↔ _
        simp only [bind_eq_ok_iff, parseDomain_eq_ok_iff, parseHostNames_some_iff]
        constructor
        · rintro ⟨domain, ⟨valid, rfl⟩, alone, rfl⟩
          exact .inr ⟨name, by rw [alone], valid, rfl⟩
        · rintro (⟨no, -⟩ | ⟨host, one, valid, rfl⟩)
          · cases no
          · obtain ⟨rfl, alone⟩ := List.cons.inj one
            exact ⟨_, ⟨valid, rfl⟩, alone, rfl⟩

theorem remark_iff {raw : Str} :
    ((trim raw).isEmpty || (trim raw).head? == some '#' || (trim raw).head? == some '!') = true ↔
    Remark raw := by
  simp [Remark, or_assoc]

theorem stripped_iff {front : String} {value host : Str} :
    (stripFront front.toList value).bind (stripBack '^') = some host ↔
    value = marked front host := by
  simp only [Option.bind_eq_some_iff, stripFront_eq_some_iff, stripBack_eq_some_iff, marked]
  constructor
  · rintro ⟨_, rfl, rfl⟩
    rfl
  · rintro rfl
    exact ⟨_, rfl, rfl⟩

theorem stripped_none {front : String} {value : Str}
    (unmarked : ∀ host, value ≠ marked front host) :
    (stripFront front.toList value).bind (stripBack '^') = none :=
  Option.eq_none_iff_forall_not_mem.mpr fun host found => unmarked host (stripped_iff.mp found)

theorem not_remark_of_allow {raw host : Str} (is : trim raw = marked "@@||" host) :
    ¬ Remark raw := by
  unfold Remark
  rw [is]
  simp [marked]

theorem not_remark_of_block {raw host : Str} (is : trim raw = marked "||" host) : ¬ Remark raw := by
  unfold Remark
  rw [is]
  simp [marked]

theorem allow_ne_block (host host' : Str) : marked "@@||" host ≠ marked "||" host' := by
  simp [marked]

theorem marked_inj {front : String} {host host' : Str} :
    marked front host = marked front host' ↔ host = host' := by
  simp [marked]

/-- A line has one reading at most. -/
theorem Reading.unique {raw : Str} {reading reading' : Option (RuleKind × Str)}
    (reads : Reading raw reading)
    (reads' : Reading raw reading') : reading = reading' := by
  cases reads with
  | remark ignored =>
      cases reads' with
      | remark => rfl
      | allow is => exact absurd ignored (not_remark_of_allow is)
      | block is => exact absurd ignored (not_remark_of_block is)
      | address kept => exact absurd ignored kept
      | host kept => exact absurd ignored kept
      | word kept => exact absurd ignored kept
  | allow is =>
      cases reads' with
      | remark ignored => exact absurd ignored (not_remark_of_allow is)
      | allow is' => rw [marked_inj.mp (is.symm.trans is')]
      | block is' => exact absurd (is.symm.trans is') (allow_ne_block _ _)
      | address _ unmarked => exact absurd is (unmarked _).1
      | host _ unmarked => exact absurd is (unmarked _).1
      | word _ unmarked => exact absurd is (unmarked _).1
  | block is =>
      cases reads' with
      | remark ignored => exact absurd ignored (not_remark_of_block is)
      | allow is' => exact absurd (is'.symm.trans is) (allow_ne_block _ _)
      | block is' => rw [marked_inj.mp (is.symm.trans is')]
      | address _ unmarked => exact absurd is (unmarked _).2
      | host _ unmarked => exact absurd is (unmarked _).2
      | word _ unmarked => exact absurd is (unmarked _).2
  | address kept unmarked fields is empty =>
      cases reads' with
      | remark ignored => exact absurd ignored kept
      | allow is' => exact absurd is' (unmarked _).1
      | block is' => exact absurd is' (unmarked _).2
      | address => rfl
      | host _ _ fields' _ one =>
          obtain ⟨rfl, rfl⟩ := List.cons.inj (fields.symm.trans fields')
          rw [empty] at one
          cases one
      | word _ _ fields' isnt =>
          obtain ⟨rfl, rfl⟩ := List.cons.inj (fields.symm.trans fields')
          rw [isnt] at is
          cases is
  | host kept unmarked fields is one =>
      cases reads' with
      | remark ignored => exact absurd ignored kept
      | allow is' => exact absurd is' (unmarked _).1
      | block is' => exact absurd is' (unmarked _).2
      | address _ _ fields' _ empty =>
          obtain ⟨rfl, rfl⟩ := List.cons.inj (fields.symm.trans fields')
          rw [empty] at one
          cases one
      | host _ _ fields' _ one' =>
          obtain ⟨rfl, rfl⟩ := List.cons.inj (fields.symm.trans fields')
          cases one.symm.trans one'
          rfl
      | word _ _ fields' isnt =>
          obtain ⟨rfl, rfl⟩ := List.cons.inj (fields.symm.trans fields')
          rw [isnt] at is
          cases is
  | word kept unmarked fields isnt =>
      cases reads' with
      | remark ignored => exact absurd ignored kept
      | allow is' => exact absurd is' (unmarked _).1
      | block is' => exact absurd is' (unmarked _).2
      | address _ _ fields' is =>
          obtain ⟨rfl, rfl⟩ := List.cons.inj (fields.symm.trans fields')
          rw [isnt] at is
          cases is
      | host _ _ fields' is =>
          obtain ⟨rfl, rfl⟩ := List.cons.inj (fields.symm.trans fields')
          rw [isnt] at is
          cases is
      | word _ _ fields' =>
          obtain ⟨rfl, -⟩ := List.cons.inj (fields.symm.trans fields')
          rfl

/-- A line with a reading is accepted if what it gives as a name is a domain. -/
theorem parseLine_of_reading {raw : Str} {reading : Option (RuleKind × Str)}
    (reads : Reading raw reading)
    (valid : ∀ kind host, reading = some (kind, host) → Domain host) (line : Nat) :
    parseLine raw line = .ok (reading.map fun rule => (rule.1, normal rule.2)) := by
  have parsed {kind : RuleKind} {host : Str} (is : Domain host) :
      (do let domain ← parseDomain host line; return some (kind, domain) : Except BlocklistError
        (Option (RuleKind × Str))) =
        .ok (some (kind, normal host)) :=
    bind_eq_ok_iff.mpr ⟨_, parseDomain_eq_ok_iff.mpr ⟨is, rfl⟩, rfl⟩
  have plain (kept : ¬ Remark raw) (unmarked : ∀ host, trim raw ≠ marked "@@||" host ∧
    trim raw ≠ marked "||" host) :
      parseLine raw line = parsePlain (trim raw) line := by
    unfold parseLine
    dsimp only
    rw [if_neg (mt remark_iff.mp kept), stripped_none fun host => (unmarked host).1,
      stripped_none fun host => (unmarked host).2]
  cases reads with
  | remark ignored =>
      unfold parseLine
      rw [if_pos (remark_iff.mpr ignored)]
      rfl
  | @allow host is =>
      unfold parseLine
      dsimp only
      rw [if_neg (mt remark_iff.mp (not_remark_of_allow is)), stripped_iff.mpr is]
      exact parsed (valid _ _ rfl)
  | @block host is =>
      have other : ∀ host', trim raw ≠ marked "@@||" host' :=
        fun host' is' => allow_ne_block host' host (is'.symm.trans is)
      unfold parseLine
      dsimp only
      rw [if_neg (mt remark_iff.mp (not_remark_of_block is)), stripped_none other,
        stripped_iff.mpr is]
      exact parsed (valid _ _ rfl)
  | address kept unmarked fields is empty =>
      rw [plain kept unmarked, parsePlain, show trim (List.takeWhile _ _) =
        content raw from rfl, fields]
      dsimp only
      rw [if_pos is]
      exact bind_eq_ok_iff.mpr ⟨none, parseHostNames_none_iff.mpr (.inl ⟨empty, rfl⟩), rfl⟩
  | host kept unmarked fields is one =>
      rw [plain kept unmarked, parsePlain, show trim (List.takeWhile _ _) =
        content raw from rfl, fields]
      dsimp only
      rw [if_pos is]
      exact bind_eq_ok_iff.mpr
        ⟨_, parseHostNames_none_iff.mpr (.inr ⟨_, one, valid _ _ rfl, rfl⟩), rfl⟩
  | word kept unmarked fields isnt =>
      rw [plain kept unmarked, parsePlain, show trim (List.takeWhile _ _) =
        content raw from rfl, fields]
      dsimp only
      rw [if_neg (by simp [isnt])]
      exact parsed (valid _ _ rfl)

/-- A line that is not left out has something before its comment. -/
theorem fields_ne_nil {raw : Str} (kept : ¬ Remark raw) : splitWhitespace (content raw) ≠ [] := by
  unfold Remark at kept
  rw [not_or, not_or] at kept
  obtain ⟨some, comment, -⟩ := kept
  obtain ⟨c, rest, value⟩ := List.exists_cons_of_ne_nil some
  have shown : isWhitespace c = false := head?_trim (by rw [value]; rfl)
  have passes : (fun d : Char => d != '#') c = true := by
    rw [value] at comment
    simpa using comment
  apply splitWhitespace_trim_ne_nil
  rw [value, @List.takeWhile_cons_of_pos _ (fun d => d != '#') _ _ passes]
  exact trim_cons_ne_nil shown _

/-- An accepted line has a reading, and what it gives as a name is a domain. -/
theorem reading_of_parseLine {raw : Str} {line : Nat} {entry : Option (RuleKind × Str)}
    (parsed : parseLine raw line = .ok entry) : ∃ reading, Reading raw reading ∧
      ∀ kind host, reading = some (kind, host) → Domain host := by
  have rule {kind : RuleKind} {host : Str} (reads : Reading raw (some (kind, host)))
      (parsed : (do let domain ← parseDomain host line; return some (kind, domain)) =
        Except.ok entry) :
      ∃ reading, Reading raw reading ∧ ∀ kind host, reading = some (kind, host) → Domain host := by
    obtain ⟨domain, name, -⟩ := bind_eq_ok_iff.mp parsed
    refine ⟨_, reads, ?_⟩
    rintro _ _ ⟨⟩
    exact (parseDomain_eq_ok_iff.mp name).1
  unfold parseLine at parsed
  dsimp only at parsed
  split at parsed
  · rename_i ignored
    exact ⟨none, .remark (remark_iff.mp ignored), fun _ _ no => nomatch no⟩
  rename_i kept
  have kept : ¬ Remark raw := mt remark_iff.mpr kept
  split at parsed
  · rename_i allowed
    exact rule (.allow (stripped_iff.mp allowed)) parsed
  rename_i notAllowed
  split at parsed
  · rename_i blocked
    exact rule (.block (stripped_iff.mp blocked)) parsed
  rename_i notBlocked
  have unmarked : ∀ host, trim raw ≠ marked "@@||" host ∧ trim raw ≠ marked "||" host := by
    intro host
    constructor
    · intro is
      rw [stripped_iff.mpr is] at notAllowed
      cases notAllowed
    · intro is
      rw [stripped_iff.mpr is] at notBlocked
      cases notBlocked
  unfold parsePlain at parsed
  have same : splitWhitespace (trim ((trim raw).takeWhile (· != '#'))) =
      splitWhitespace (content raw) := rfl
  rw [same] at parsed
  cases fields : splitWhitespace (content raw) with
  | nil => exact absurd fields (fields_ne_nil kept)
  | cons first names =>
      rw [fields] at parsed
      dsimp only at parsed
      split at parsed
      · rename_i address
        obtain ⟨accepted, named, -⟩ := bind_eq_ok_iff.mp parsed
        rcases parseHostNames_none_iff.mp named with ⟨empty, -⟩ | ⟨host, one, valid, -⟩
        · exact ⟨none, .address kept unmarked fields address empty, fun _ _ no => nomatch no⟩
        · refine ⟨_, .host kept unmarked fields address one, ?_⟩
          rintro _ _ ⟨⟩
          exact valid
      · rename_i isnt
        split at parsed
        · cases parsed
        · rename_i single
          have alone : names = [] := by simpa using single
          subst alone
          exact rule (.word kept unmarked fields (by simpa using isnt)) parsed

/-! ### Names with other characters -/

/-- Nothing in the text but label characters and dots. -/
def Clean (host : Str) : Prop := ∀ c ∈ host, c = '.' ∨ isLabelChar c = true

theorem isLabelChar_toLower (c : Char) : isLabelChar c.toLower = isLabelChar c := by
  by_cases upper : c.isUpper = true
  · have range := isUpper_iff.mp upper
    have shifted := toNat_toLower upper
    have lower : c.toLower.isLower = true := isLower_iff.mpr (by omega)
    have alpha : ∀ d : Char, d.isAlpha = (d.isUpper || d.isLower) := fun _ => rfl
    simp [isLabelChar, Char.isAlphanum, alpha, upper, lower]
  · rw [toLower_of_not_isUpper upper]

/-- A domain is a host name if nothing else is in what it was listed as. -/
theorem hostName_iff {host : Str} (valid : Domain host) : HostName (normal host) ↔ Clean host := by
  have lower : ∀ {c : Char}, c.toLower = '.' ↔ c = '.' := toLower_eq_iff (.inl (by decide))
  constructor
  · intro named c mem
    by_cases dot : c = '.'
    · exact .inl dot
    · have kept : c.toLower ∈ normal host := List.mem_map_of_mem (mem_trimMatches mem dot)
      obtain ⟨label, listed, inLabel⟩ := exists_mem_splitOn kept (mt lower.mp dot)
      exact .inr (isLabelChar_toLower c ▸ (named label listed).2 _ inLabel)
  · intro clean label listed
    obtain ⟨-, -, -, labels⟩ := valid
    have fine := List.all_eq_true.mp labels label listed
    refine ⟨?_, fun c inLabel => ?_⟩
    · rintro rfl
      simp at fine
    · obtain ⟨d, inHost, rfl⟩ := List.mem_map.mp (mem_of_mem_splitOn listed inLabel)
      rcases clean d (mem_of_mem_trimMatches inHost) with dot | labelled
      · rw [lower.mpr dot] at inLabel
        exact absurd inLabel (not_mem_of_mem_splitOn listed)
      · rw [isLabelChar_toLower]
        exact labelled

/-- What stands between marks is not cut off by a comment if it is clean. -/
theorem content_of_marked {raw host : Str} {front : String}
    (is : trim raw = marked front host) (clean : Clean host)
    (uncommented : '#' ∉ front.toList) : content raw = marked front host := by
  have whole : (trim raw).takeWhile (· != '#') = trim raw := by
    rw [List.takeWhile_eq_self_iff, is]
    intro c mem
    have other : c ≠ '#' := by
      rintro rfl
      rcases List.mem_append.mp mem with inFront | later
      · exact uncommented inFront
      · rcases List.mem_append.mp later with inHost | last
        · rcases clean _ inHost with no | no <;> exact absurd no (by decide)
        · exact absurd (List.mem_singleton.mp last) (by decide)
    simpa using other
  rw [content, whole, trim_trim, is]

/-- A line that is not left out has the form of the rule it is taken for, if what it gives as a name
is clean. -/
theorem form_of_reading {raw : Str} {reading : Option (RuleKind × Str)}
    (reads : Reading raw reading) (kept : ¬ Remark raw)
    (valid : ∀ kind host, reading = some (kind, host) → Domain host)
    (clean : ∀ kind host, reading = some (kind, host) → Clean host) :
    Form (content raw) (reading.map fun rule => (rule.1, normal rule.2)) := by
  have named : ∀ kind host, reading = some (kind, host) → HostName (normal host) :=
    fun kind host is => (hostName_iff (valid kind host is)).mpr (clean kind host is)
  cases reads with
  | remark ignored => exact absurd ignored kept
  | allow is =>
      rw [content_of_marked is (clean _ _ rfl) (by decide)]
      exact .allow (named _ _ rfl)
  | block is =>
      rw [content_of_marked is (clean _ _ rfl) (by decide)]
      exact .block (named _ _ rfl)
  | address kept unmarked fields is empty => exact .address fields is empty
  | host kept unmarked fields is one => exact .hosts fields is one (named _ _ rfl)
  | word kept unmarked fields isnt => exact .plain fields isnt (named _ _ rfl)

/-! ### Lists -/

open Classical in
/-- How many lines give a rule. -/
noncomputable def ruleCount (text : Str) : Nat := (lines text).countP fun raw => ∃ kind host,
    Reading raw (some (kind, host))

/-- A list within the limits whose lines can all be read, with domains as names. -/
structure Acceptable (text : Str) : Prop where
  small : byteLen text ≤ maxBlocklistBytes
  read : ∀ raw ∈ lines text, ∃ reading, Reading raw reading ∧ ∀ kind host,
    reading = some (kind, host) → Domain host
  few : ruleCount text ≤ maxBlocklistEntries

theorem says_iff {raw : Str} {entry : Option (RuleKind × Str)} : Says raw entry ↔
    ∃ reading, Reading raw reading ∧
    (∀ kind host, reading = some (kind, host) → Domain host) ∧ entry = reading.map fun rule =>
      (rule.1, normal rule.2) := by
  constructor
  · intro meant
    obtain ⟨reading, reads, valid⟩ := reading_of_parseLine (meant 1)
    have parsed := parseLine_of_reading reads valid 1
    rw [meant 1] at parsed
    cases parsed
    exact ⟨reading, reads, valid, rfl⟩
  · rintro ⟨reading, reads, valid, rfl⟩
    exact parseLine_of_reading reads valid

/-- The rules of a list that can be read are those of the lines that give one. -/
theorem length_entries {text : Str}
    (read : ∀ raw ∈ lines text, ∃ reading, Reading raw reading ∧ ∀ kind host,
      reading = some (kind, host) → Domain host) :
    ((lines text).filterMap entryOf).length = ruleCount text := by
  classical
  unfold ruleCount
  rw [List.length_filterMap_eq_countP]
  apply List.countP_congr
  intro raw line
  obtain ⟨reading, reads, valid⟩ := read raw line
  have meant : Says raw _ := says_iff.mpr ⟨reading, reads, valid, rfl⟩
  rw [decide_eq_true_iff]
  cases reading with
  | none =>
      rw [entryOf_eq_none meant]
      constructor
      · intro no
        cases no
      · rintro ⟨kind, host, other⟩
        cases reads.unique other
  | some rule =>
      rw [entryOf_eq_some_iff.mpr meant]
      exact ⟨fun _ => ⟨rule.1, rule.2, reads⟩, fun _ => rfl⟩

theorem acceptable_iff {text : Str} : Acceptable text ↔
    ∃ compiled, compileBlocklist text = .ok compiled := by
  constructor
  · rintro ⟨small, read, few⟩
    refine compileBlocklist_succeeds small (fun raw line => ?_) (length_entries read ▸ few)
    obtain ⟨reading, reads, valid⟩ := read raw line
    exact ⟨_, says_iff.mpr ⟨reading, reads, valid, rfl⟩⟩
  · rintro ⟨compiled, accepted⟩
    obtain ⟨small, say, few, -⟩ := compileBlocklist_ok accepted
    have read : ∀ raw ∈ lines text, ∃ reading, Reading raw reading ∧ ∀ kind host,
        reading = some (kind, host) → Domain host := by
      intro raw line
      obtain ⟨entry, meant⟩ := say raw line
      exact reading_of_parseLine (meant 1)
    exact ⟨small, read, length_entries read ▸ few⟩

/-- The rules of the filter are those of the lines. -/
theorem mem_rules_iff {text : Str} {compiled : CompiledBlocklist}
    (accepted : compileBlocklist text = .ok compiled)
    {kind : RuleKind} {name : Str} : name ∈ compiled.rules kind ↔ ∃ raw ∈ lines text,
      Says raw (some (kind, name)) := by
  obtain ⟨-, -, -, filter⟩ := compileBlocklist_ok accepted
  rw [← mem_listed]
  unfold CompiledBlocklist.rules
  rw [filter]
  cases kind <;> simp only [filterOf, mem_sortDedup]

/-- Every accepted text conforms to the supported forms. -/
def OnlyForms (text : Str) : Prop := ∀ compiled, compileBlocklist text = .ok compiled →
    Conforms text compiled

/-- A list conforms if nothing that its lines give as a name has characters other than label
characters and dots, or if it is refused for other reasons. -/
theorem only_forms_iff (text : Str) : OnlyForms text ↔
    (Acceptable text → ∀ raw ∈ lines text, ∀ kind host, Reading raw (some (kind, host)) →
      Clean host) := by
  constructor
  · intro conforms acceptable raw line kind host reads
    obtain ⟨compiled, accepted⟩ := acceptable_iff.mp acceptable
    obtain ⟨reading, reads', valid⟩ := acceptable.read raw line
    cases reads.unique reads'
    have valid := valid kind host rfl
    have kept : ¬ Remark raw := fun ignored => nomatch reads.unique (.remark ignored)
    obtain ⟨entry, form, meant, -⟩ := (conforms compiled accepted).formed raw line kept
    have parsed := parseLine_of_reading reads (by rintro _ _ ⟨⟩; exact valid) 1
    rw [meant 1] at parsed
    cases parsed
    exact (hostName_iff valid).mp form.hostName
  · intro clean compiled accepted
    have acceptable := acceptable_iff.mpr ⟨compiled, accepted⟩
    have formed : ∀ raw ∈ lines text, ¬ Remark raw → ∃ entry, Form (content raw) entry ∧
        Says raw entry := by
      intro raw line kept
      obtain ⟨reading, reads, valid⟩ := acceptable.read raw line
      refine ⟨_, form_of_reading reads kept valid ?_, says_iff.mpr ⟨reading, reads, valid, rfl⟩⟩
      rintro kind host rfl
      exact clean acceptable raw line kind host reads
    constructor
    · intro raw line kept
      obtain ⟨entry, form, meant⟩ := formed raw line kept
      refine ⟨entry, form, meant, ?_⟩
      rintro kind name rfl
      exact (mem_rules_iff accepted).mpr ⟨raw, line, meant⟩
    · intro kind name listed
      obtain ⟨raw, line, meant⟩ := (mem_rules_iff accepted).mp listed
      have kept : ¬ Remark raw := by
        intro ignored
        have parsed := parseLine_of_reading (.remark ignored) (fun _ _ no => nomatch no) 1
        rw [meant 1] at parsed
        cases parsed
      obtain ⟨entry, form, meant'⟩ := formed raw line kept
      have same := meant' 1
      rw [meant 1] at same
      cases same
      exact ⟨raw, line, kept, form⟩

/-- A suffix rule with an option is taken for a host name, and the whole line is blocked as a
name. -/
theorem option_taken_for_name :
    ∃ compiled, compileBlocklist "||ads.example^$third-party".toList = .ok compiled ∧
    "||ads.example^$third-party".toList ∈ compiled.rules .blockExact ∧
    ¬ OnlyForms "||ads.example^$third-party".toList := by
  have found :
    (compileBlocklist "||ads.example^$third-party".toList).toOption.map
      (fun compiled => compiled.rules .blockExact) =
      some ["||ads.example^$third-party".toList] := by decide +kernel
  obtain ⟨compiled, accepted, rules⟩ := exists_ok_of_map found
  have listed : "||ads.example^$third-party".toList ∈ compiled.rules .blockExact := by
    rw [rules]
    exact List.mem_singleton_self _
  refine ⟨compiled, accepted, listed, fun conforms => ?_⟩
  obtain ⟨raw, -, -, form⟩ := (conforms compiled accepted).only _ _ listed
  have first := (form.hostName "||ads".toList (by decide)).2 '|' (by decide)
  exact absurd first (by decide)

end Commeatus.Compat
