import Mathlib.Data.Char
import Mathlib.Data.List.Lex
import Commeatus.Lib.Search
import Commeatus.Lib.Text

/-!
Compiled domain sets (`core/src/domain_set.rs`). A set keeps its two lists
strictly sorted, as `compile` leaves them, so that a binary search finds a
candidate exactly when it is a member.
-/

namespace Commeatus.Core

open Commeatus.Lib

def maxDomainLength : Nat := 253

structure DomainSetError where
  message : Str
  deriving DecidableEq

/-- Every label of a dotted name has 1 to 63 bytes. -/
def labelsOk (name : Str) : Bool :=
  (name.splitOn '.').all fun label => !label.isEmpty && decide (byteLen label ≤ 63)

/-- `normalize_domain` of the set compiler. -/
def normalizeSetDomain (value : Str) : Except DomainSetError Str :=
  let value := toAsciiLowercase (trimMatches '.' value)
  if value.isEmpty || decide (maxDomainLength < byteLen value) ||
    !isAscii value || !labelsOk value then
    .error ⟨"invalid domain `".toList ++ value ++ "`".toList⟩
  else .ok value

structure DomainSet where
  exact : List Str
  suffixes : List Str
  exactSorted : exact.Pairwise (· < ·)
  suffixesSorted : suffixes.Pairwise (· < ·)
  deriving DecidableEq

def DomainSet.compile (exact suffixes : List Str) : Except DomainSetError DomainSet := do
  let exact ← exact.mapM normalizeSetDomain
  let suffixes ← suffixes.mapM normalizeSetDomain
  return ⟨sortDedup exact, sortDedup suffixes, sortDedup_sorted _, sortDedup_sorted _⟩

/-- What follows each dot of a name, from the first dot on. -/
def afterDots : Str → List Str
  | [] => []
  | c :: rest => if c = '.' then rest :: afterDots rest else afterDots rest

/-- The candidates of the suffix loop: the name itself, then what follows each dot. -/
def suffixCandidates (domain : Str) : List Str := domain :: afterDots domain

/-- `DomainSet::matches`. -/
def DomainSet.matchesDomain (set : DomainSet) (domain : Str) : Bool :=
  let domain := trimEndMatches '.' domain
  if domain.isEmpty || decide (maxDomainLength < byteLen domain) || !isAscii domain then false
  else searched set.exact domain || (suffixCandidates domain).any (searched set.suffixes)

/-- The domain is the suffix, or ends with it behind a dot. -/
def LabelSuffix (suffix domain : Str) : Prop :=
  domain = suffix ∨ ∃ front, domain = front ++ '.' :: suffix

theorem mem_afterDots {suffix domain : Str} :
    suffix ∈ afterDots domain ↔ ∃ front, domain = front ++ '.' :: suffix := by
  induction domain with
  | nil =>
      constructor
      · intro none
        cases none
      · rintro ⟨front, no⟩
        cases front <;> cases no
  | cons c rest ih =>
      constructor
      · intro member
        unfold afterDots at member
        split at member
        · rename_i dot
          rcases List.mem_cons.mp member with rfl | later
          · exact ⟨[], by rw [dot]; rfl⟩
          · obtain ⟨front, split⟩ := ih.mp later
            exact ⟨c :: front, by rw [split]; rfl⟩
        · obtain ⟨front, split⟩ := ih.mp member
          exact ⟨c :: front, by rw [split]; rfl⟩
      · rintro ⟨front, split⟩
        unfold afterDots
        cases front with
        | nil =>
            cases split
            exact List.mem_cons_self
        | cons c' front =>
            cases split
            have later := ih.mpr ⟨front, rfl⟩
            split
            · exact List.mem_cons_of_mem _ later
            · exact later

theorem mem_suffixCandidates {suffix domain : Str} : suffix ∈ suffixCandidates domain ↔
    LabelSuffix suffix domain := by
  rw [suffixCandidates, List.mem_cons, mem_afterDots, LabelSuffix, eq_comm]

/-- On a short ASCII name without a trailing dot, the lookups find what the lists have. -/
theorem DomainSet.matchesDomain_iff {set : DomainSet} {domain : Str} (ne : domain ≠ [])
    (short : byteLen domain ≤ maxDomainLength) (ascii : isAscii domain = true)
    (undotted : domain.getLast? ≠ some '.') :
    set.matchesDomain domain = true ↔ domain ∈ set.exact ∨ ∃ suffix ∈ set.suffixes,
      LabelSuffix suffix domain := by
  have trimmed : trimEndMatches '.' domain = domain := trimEndMatches_eq_self undotted
  have valid :
      (domain.isEmpty || decide (maxDomainLength < byteLen domain) || !isAscii domain) = false := by
    simp [ne, short, ascii]
  unfold matchesDomain
  dsimp only
  rw [trimmed, valid, if_neg Bool.false_ne_true, Bool.or_eq_true,
    searched_iff set.exactSorted, List.any_eq_true]
  constructor
  · rintro (member | ⟨suffix, candidate, found⟩)
    · exact .inl member
    · exact .inr ⟨suffix, (searched_iff set.suffixesSorted suffix).mp found,
        mem_suffixCandidates.mp candidate⟩
  · rintro (member | ⟨suffix, found, candidate⟩)
    · exact .inl member
    · exact .inr ⟨suffix, mem_suffixCandidates.mpr candidate,
        (searched_iff set.suffixesSorted suffix).mpr found⟩

/-- A block set with an exception set. -/
structure DomainFilter where
  blocked : DomainSet
  allowed : DomainSet
  deriving DecidableEq

def DomainFilter.isBlocked (filter : DomainFilter) (domain : Str) : Bool :=
  filter.blocked.matchesDomain domain && !filter.allowed.matchesDomain domain

end Commeatus.Core
