import Commeatus.Dns.Engine
import Commeatus.Lib.Sweep

/-!
What hosts tables hold.

However a table was put together of parsed sources, its names are normal and
each has addresses without repetition. Nothing bounds how many.
-/

namespace Commeatus.Dns

open Commeatus.Lib Commeatus.Core

namespace HostsTable

/-- A table that was made by parsing and merging. -/
inductive Obtained : HostsTable → Prop where
  | default : Obtained {}
  | parse {text : Str} {table : HostsTable} (parsed : HostsTable.parse text = .ok table) :
      Obtained table
  | merge {table other : HostsTable} (first : Obtained table) (second : Obtained other) :
      Obtained (table.merge other)

/-- Every name is normal, and has addresses without repetition. -/
def Sound (table : HostsTable) : Prop :=
  ∀ name addresses, table.records.lookup name = some addresses →
    normalizeName name = .ok name ∧ addresses ≠ [] ∧ addresses.Nodup

variable {table table' other : HostsTable} {name : Str}

theorem sound_default : Sound {} := fun _ _ no => nomatch no

theorem Sound.add (sound : table.Sound) (normal : normalizeName name = .ok name)
    (address : IpAddr) :
    (table.add name address).Sound := by
  intro key addresses found
  change (table.records.insert name (pushNew ((table.records.lookup name).getD []) address)).lookup
    key = _ at found
  rw [Map.lookup_insert] at found
  split at found
  · rename_i same
    subst same
    cases found
    have joined : address ∈ pushNew ((table.records.lookup key).getD []) address :=
      mem_pushNew.mpr (.inr rfl)
    refine ⟨normal, List.ne_nil_of_mem joined, nodup_pushNew ?_ address⟩
    cases known : table.records.lookup key with
    | none => exact List.nodup_nil
    | some addresses => exact (sound key addresses known).2.2
  · exact sound key addresses found

theorem Sound.addAll (sound : table.Sound) (normal : normalizeName name = .ok name)
    (addresses : List IpAddr) :
    (addresses.foldl (fun table address => table.add name address) table).Sound := by
  induction addresses generalizing table with
  | nil => exact sound
  | cons address addresses ih => exact ih (sound.add normal address)

theorem Sound.merge (sound : table.Sound) (sound' : other.Sound) : (table.merge other).Sound := by
  have normal : ∀ entry ∈ other.records.entries, normalizeName entry.1 = .ok entry.1 :=
    fun entry member => (sound' entry.1 entry.2 (Map.mem_entries_iff.mp member)).1
  unfold HostsTable.merge
  generalize other.records.entries = entries at normal ⊢
  induction entries generalizing table with
  | nil => exact sound
  | cons entry entries ih =>
      rw [List.foldl_cons]
      have added := sound.addAll (normal entry List.mem_cons_self) entry.2
      exact ih added fun later member => normal later (List.mem_cons_of_mem _ member)

theorem parseNames_sound {line : Nat} {address : IpAddr} {names : List Str}
    {state state' : HostsTable × Nat}
    (parsed : parseNames line address names state = .ok state')
    (sound : state.1.Sound) : state'.1.Sound := by
  induction names generalizing state with
  | nil =>
      cases parsed
      exact sound
  | cons name names ih =>
      obtain ⟨-, parsed⟩ := refuse_bind_eq_ok_iff.mp parsed
      dsimp only at parsed
      split at parsed
      · rename_i valid
        exact ih parsed (sound.add (normalizeName_idem valid) address)
      · cases parsed

theorem parseLine_sound {raw : Str} {line : Nat} {state state' : HostsTable × Nat}
    (parsed : parseLine raw line state = .ok state') (sound : state.1.Sound) : state'.1.Sound := by
  unfold parseLine at parsed
  dsimp only at parsed
  split at parsed
  · cases parsed
    exact sound
  · split at parsed
    · cases parsed
    · obtain ⟨address, -, parsed⟩ := okOr_bind_eq_ok_iff.mp parsed
      obtain ⟨state₁, named, parsed⟩ := bind_eq_ok_iff.mp parsed
      obtain ⟨-, parsed⟩ := refuse_bind_eq_ok_iff.mp parsed
      cases parsed
      exact parseNames_sound named sound

theorem parseLines_sound {raws : List Str} {line : Nat} {state state' : HostsTable × Nat}
    (parsed : parseLines raws line state = .ok state')
    (sound : state.1.Sound) : state'.1.Sound := by
  induction raws generalizing line state with
  | nil =>
      cases parsed
      exact sound
  | cons raw raws ih =>
      obtain ⟨state₁, first, rest⟩ := bind_eq_ok_iff.mp parsed
      exact ih rest (parseLine_sound first sound)

theorem parse_sound {text : Str} (parsed : parse text = .ok table) : table.Sound := by
  obtain ⟨-, parsed⟩ := refuse_bind_eq_ok_iff.mp parsed
  obtain ⟨state, read, parsed⟩ := bind_eq_ok_iff.mp parsed
  cases parsed
  exact parseLines_sound read sound_default

theorem Obtained.sound (obtained : table.Obtained) : table.Sound := by
  induction obtained with
  | default => exact sound_default
  | parse parsed => exact parse_sound parsed
  | merge first second sound sound' => exact sound.merge sound'

end HostsTable

end Commeatus.Dns
