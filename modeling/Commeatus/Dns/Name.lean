import Commeatus.Core.DomainSet

/-!
Names as the DNS layer asks for them (`dns/src/lib.rs`). `normalizeName` is the
only way a query name is made: dots are trimmed at both ends, letters are
lowercased, and every label has 1 to 63 bytes.
-/

namespace Commeatus.Dns

open Commeatus.Lib Commeatus.Core

inductive DnsErrorKind where
  | invalidName | hostsParse | noResolvers | noRecords | resolverFailure | invalidResponse
  | invalidConfiguration
  deriving DecidableEq, Repr

structure DnsError where
  kind : DnsErrorKind
  message : String
  deriving DecidableEq, Repr

/-- `normalize_name`. -/
def normalizeName (name : Str) : Except DnsError Str :=
  let name := toAsciiLowercase (trimMatches '.' name)
  if name.isEmpty || decide (253 < byteLen name) || !isAscii name || !labelsOk name then
    .error ⟨.invalidName, "invalid DNS name"⟩
  else .ok name

theorem normalizeName_eq_ok {name n : Str} (h : normalizeName name = .ok n) :
    n = toAsciiLowercase (trimMatches '.' name) ∧ n ≠ [] ∧ byteLen n ≤ 253 := by
  simp only [normalizeName] at h
  split at h
  · cases h
  · rename_i valid
    cases h
    simp only [Bool.or_eq_true, List.isEmpty_iff, decide_eq_true_eq, not_or, not_lt] at valid
    exact ⟨rfl, valid.1.1.1, valid.1.1.2⟩

/-- A normalised name is left alone. -/
theorem normalizeName_idem {name n : Str} (h : normalizeName name = .ok n) :
    normalizeName n = .ok n := by
  unfold normalizeName at h ⊢
  dsimp only at h ⊢
  split at h
  · cases h
  · rename_i valid
    cases h
    rw [lowercase_trimMatches_idem (by decide)]
    exact if_neg valid

end Commeatus.Dns
