import Commeatus.Core.Cidr
import Commeatus.Lib.Bits
import Commeatus.Lib.Checked

/-!
What an IP network contains (`core/src/cidr.rs`).

A network is the set of the addresses of one family that start with the same
bits, read from the octets in network order. What is parsed from a text
contains exactly the network of the address and the prefix length that are
written there.
-/

namespace Commeatus.Core

open Commeatus.Lib

/-! ### Networks of addresses -/

/-- The bits of an address in network order. -/
def bits : IpAddr → List Bool
  | .v4 address => address.octets.flatMap fun octet => bitsOf 8 octet.toNat
  | .v6 address => address.octets.flatMap fun octet => bitsOf 8 octet.toNat

def width : IpAddr → Nat
  | .v4 _ => 32
  | .v6 _ => 128

/-- The addresses of the same family with the same first bits. -/
def network (address : IpAddr) (prefixLen : Nat) : Set IpAddr :=
  {other | other.isIpv6 = address.isIpv6 ∧ (bits other).take prefixLen =
    (bits address).take prefixLen}

variable {a b : IpAddr} {p q : Nat}

theorem mem_network_self (a : IpAddr) (p : Nat) : a ∈ network a p := ⟨rfl, rfl⟩

theorem network_zero (a : IpAddr) : network a 0 = {b | b.isIpv6 = a.isIpv6} := by
  ext b
  simp [network]

theorem network_antitone (shorter : q ≤ p) (a : IpAddr) : network a p ⊆ network a q := by
  rintro b ⟨family, same⟩
  refine ⟨family, ?_⟩
  have cut := congrArg (List.take q) same
  rwa [List.take_take, List.take_take, Nat.min_eq_left shorter] at cut

/-! ### Addresses as words -/

theorem bitsOf_v4Bits (x : Ipv4Addr) : bitsOf 32 (v4Bits x).toNat = bits (.v4 x) := by
  have spelled := bitsOf_foldl (fun octet : UInt8 => octet.toNat_lt) x.octets
  have four : x.octets.length = 4 := rfl
  rw [four] at spelled
  rw [v4Bits, bitsOf_ofNat]
  exact spelled

theorem bitsOf_segment (segment : UInt16) : bitsOf 16 segment.toNat =
    (toBeBytes segment).flatMap fun octet => bitsOf 8 octet.toNat := by
  have small := segment.toNat_lt
  have split : segment.toNat / 256 * 2 ^ 8 + segment.toNat % 256 = segment.toNat :=
    Nat.div_add_mod' _ _
  have high : (UInt8.ofNat (segment.toNat / 256)).toNat = segment.toNat / 256 := by
    rw [UInt8.toNat_ofNat']
    omega
  have low : (UInt8.ofNat (segment.toNat % 256)).toNat = segment.toNat % 256 := by
    rw [UInt8.toNat_ofNat']
    omega
  have two :=
    @bitsOf_digit 8 8 (segment.toNat % 256) (Nat.mod_lt _ (by decide)) (segment.toNat / 256)
  rw [split] at two
  simpa [toBeBytes, high, low] using two

theorem bitsOf_v6Bits (x : Ipv6Addr) : bitsOf 128 (v6Bits x).toNat = bits (.v6 x) := by
  have spelled := bitsOf_foldl (fun segment : UInt16 => segment.toNat_lt) x.segments
  rw [Ipv6Addr.length_segments] at spelled
  have octets : (x.segments.flatMap fun segment => bitsOf 16 segment.toNat) = bits (.v6 x) := by
    rw [bits, Ipv6Addr.octets, List.flatMap_assoc]
    exact List.flatMap_congr fun segment _ => bitsOf_segment segment
  rw [v6Bits, bitsOf_ofNat, ← octets]
  exact spelled

theorem width_lt (a : IpAddr) : width a < 256 := by
  cases a with
  | v4 x => exact (by decide : 32 < 256)
  | v6 x => exact (by decide : 128 < 256)

theorem toNat_prefixLen (small : p < 256) : (UInt8.ofNat p).toNat = p :=
  UInt8.toNat_ofNat_of_lt' small

/-- The masks in the code, with the case of their own for the empty prefix. -/
theorem mask_eq (w : Nat) (small : p < 256) :
    (if UInt8.ofNat p = 0 then 0 else BitVec.allOnes w <<< (w - (UInt8.ofNat p).toNat)) =
      leadingMask w p := by
  split
  · rename_i zero
    have empty : p = 0 := by
      rw [← toNat_prefixLen small, zero]
      rfl
    rw [empty, leadingMask_zero]
  · rw [toNat_prefixLen small, leadingMask]

theorem v4Mask_eq (small : p < 256) : v4Mask (UInt8.ofNat p) = leadingMask 32 p := mask_eq 32 small

theorem v6Mask_eq (small : p < 256) : v6Mask (UInt8.ofNat p) = leadingMask 128 p :=
  mask_eq 128 small

namespace IpCidr

/-- The network of an address as it is stored. -/
def stored : IpAddr → Nat → IpCidr
  | .v4 address, prefixLen =>
      .v4 (v4Bits address &&& v4Mask (UInt8.ofNat prefixLen)) (UInt8.ofNat prefixLen)
  | .v6 address, prefixLen =>
      .v6 (v6Bits address &&& v6Mask (UInt8.ofNat prefixLen)) (UInt8.ofNat prefixLen)

theorem contains_stored (fits : p ≤ width a) : (stored a p).contains b = true ↔
    b ∈ network a p := by
  have small := Nat.lt_of_le_of_lt fits (width_lt a)
  cases a with
  | v4 x =>
      cases b with
      | v4 y =>
          have narrow : p ≤ 32 := fits
          rw [stored, contains, beq_iff_eq, v4Mask_eq small, and_leadingMask_eq_iff narrow,
            bitsOf_v4Bits, bitsOf_v4Bits]
          exact (and_iff_right rfl).symm
      | v6 y => simp [stored, contains, network, IpAddr.isIpv6]
  | v6 x =>
      cases b with
      | v4 y => simp [stored, contains, network, IpAddr.isIpv6]
      | v6 y =>
          have narrow : p ≤ 128 := fits
          rw [stored, contains, beq_iff_eq, v6Mask_eq small, and_leadingMask_eq_iff narrow,
            bitsOf_v6Bits, bitsOf_v6Bits]
          exact (and_iff_right rfl).symm

theorem stored_congr (member : b ∈ network a p) (fits : p ≤ width a) : stored b p = stored a p := by
  have contained := (contains_stored fits).mpr member
  cases a with
  | v4 x =>
      cases b with
      | v4 y =>
          rw [stored, contains, beq_iff_eq] at contained
          rw [stored, stored, contained]
      | v6 y => cases contained
  | v6 x =>
      cases b with
      | v4 y => cases contained
      | v6 y =>
          rw [stored, contains, beq_iff_eq] at contained
          rw [stored, stored, contained]

theorem stored_prefixLen {b : IpAddr} (fits : p ≤ width a) (fits' : q ≤ width b)
    (same : stored b q = stored a p) : q = p := by
  have value : UInt8.ofNat q = UInt8.ofNat p := by
    cases a with
    | v4 x =>
        cases b with
        | v4 y => exact (IpCidr.v4.inj same).2
        | v6 y => cases same
    | v6 x =>
        cases b with
        | v4 y => cases same
        | v6 y => exact (IpCidr.v6.inj same).2
  have number := congrArg UInt8.toNat value
  rwa [toNat_prefixLen (Nat.lt_of_le_of_lt fits' (width_lt b)),
    toNat_prefixLen (Nat.lt_of_le_of_lt fits (width_lt a))] at number

/-- Networks are stored alike when they are the same. -/
theorem stored_eq_iff (fits : p ≤ width a) (fits' : q ≤ width b) : stored b q = stored a p ↔
    q = p ∧ b ∈ network a p := by
  constructor
  · intro same
    have number := stored_prefixLen fits fits' same
    refine ⟨number, (contains_stored fits).mp ?_⟩
    rw [← same]
    exact (contains_stored fits').mpr (mem_network_self b q)
  · rintro ⟨rfl, member⟩
    exact stored_congr member fits

/-! ### Texts -/

/-- The text is an address, a slash, and a prefix length that its family has. -/
inductive Written (text : Str) (address : IpAddr) (prefixLen : Nat) : Prop where
  | intro {addressText prefixText : Str} (split : text = addressText ++ '/' :: prefixText)
      (first : '/' ∉ addressText)
      (parsed : IpAddr.parse addressText = some address)
        (number : parseUnsigned 255 prefixText = some prefixLen)
      (fits : prefixLen ≤ width address)

theorem Written.fits {text : Str} (written : Written text a p) : p ≤ width a := by
  cases written
  assumption

theorem fromStr_eq_ok_iff {text : Str} {cidr : IpCidr} :
    fromStr text = .ok cidr ↔ ∃ address prefixLen, Written text address prefixLen ∧
      cidr = stored address prefixLen := by
  constructor
  · intro read
    unfold fromStr at read
    split at read
    · cases read
    rename_i addressText prefixText splits
    split at read
    · cases read
    rename_i address parsed
    split at read
    · cases read
    rename_i prefixLen number
    obtain ⟨split, first⟩ := splitOnce_eq_some splits
    have small : prefixLen < 256 := Nat.lt_succ_of_le (le_of_parseUnsigned number)
    refine ⟨address, prefixLen, ?_⟩
    cases address with
    | v4 x =>
        dsimp only at read
        split at read
        · rename_i fits
          cases read
          rw [UInt8.le_iff_toNat_le, toNat_prefixLen small] at fits
          exact ⟨.intro split first parsed number fits, rfl⟩
        · cases read
    | v6 x =>
        dsimp only at read
        split at read
        · rename_i fits
          cases read
          rw [UInt8.le_iff_toNat_le, toNat_prefixLen small] at fits
          exact ⟨.intro split first parsed number fits, rfl⟩
        · cases read
  · rintro ⟨address, prefixLen, ⟨rfl, first, parsed, number, fits⟩, rfl⟩
    have small := Nat.lt_of_le_of_lt fits (width_lt address)
    unfold fromStr
    rw [splitOnce_append first]
    dsimp only
    rw [parsed]
    dsimp only
    rw [number]
    cases address with
    | v4 x =>
        have narrow : UInt8.ofNat prefixLen ≤ 32 := by
          rw [UInt8.le_iff_toNat_le, toNat_prefixLen small]
          exact fits
        exact if_pos narrow
    | v6 x =>
        have narrow : UInt8.ofNat prefixLen ≤ 128 := by
          rw [UInt8.le_iff_toNat_le, toNat_prefixLen small]
          exact fits
        exact if_pos narrow

/-! ### Shifts

The code once more, with the differences and the shifts that panic when they
leave their word.
-/

namespace Access

open Checked

def mask (w : Nat) (prefixLen : UInt8) : Checked CidrParseError (BitVec w) :=
  if prefixLen = 0 then return 0
  else do
    let amount ← difference w prefixLen.toNat
    shiftLeft (BitVec.allOnes w) amount

def v4Mask (prefixLen : UInt8) : Checked CidrParseError (BitVec 32) := mask 32 prefixLen

def v6Mask (prefixLen : UInt8) : Checked CidrParseError (BitVec 128) := mask 128 prefixLen

def contains : IpCidr → IpAddr → Checked CidrParseError Bool
  | .v4 network prefixLen, .v4 address => do
      let mask ← v4Mask prefixLen
      return v4Bits address &&& mask == network
  | .v6 network prefixLen, .v6 address => do
      let mask ← v6Mask prefixLen
      return v6Bits address &&& mask == network
  | _, _ => return false

def fromStr (value : Str) : Checked CidrParseError IpCidr := do
  let (addressText, prefixText) ← ofExcept (okOr (splitOnce '/' value) .missingPrefix)
  let address ← ofExcept (okOr (IpAddr.parse addressText) .invalidAddress)
  let number ← ofExcept (okOr (parseUnsigned 255 prefixText) .invalidPrefix)
  let prefixLen := UInt8.ofNat number
  match address with
  | .v4 address =>
      if prefixLen ≤ 32 then do
        let mask ← v4Mask prefixLen
        return .v4 (v4Bits address &&& mask) prefixLen
      else ofExcept (.error .prefixOutOfRange)
  | .v6 address =>
      if prefixLen ≤ 128 then do
        let mask ← v6Mask prefixLen
        return .v6 (v6Bits address &&& mask) prefixLen
      else ofExcept (.error .prefixOutOfRange)

theorem settles_mask {w : Nat} {prefixLen : UInt8} (fits : prefixLen.toNat ≤ w) :
    Settles (mask w prefixLen)
    (.ok (if prefixLen = 0 then 0 else BitVec.allOnes w <<< (w - prefixLen.toNat))) := by
  unfold mask
  split
  · exact settles_pure _
  · rename_i nonzero
    have positive : 0 < prefixLen.toNat :=
      Nat.pos_of_ne_zero fun zero => nonzero (UInt8.toNat_inj.mp zero)
    exact (settles_difference fits).step (settles_shiftLeft _ (by omega))

theorem settles_v4Mask {prefixLen : UInt8} (fits : prefixLen ≤ 32) :
    Settles (v4Mask prefixLen) (.ok (Core.v4Mask prefixLen)) :=
  settles_mask (UInt8.le_iff_toNat_le.mp fits)

theorem settles_v6Mask {prefixLen : UInt8} (fits : prefixLen ≤ 128) :
    Settles (v6Mask prefixLen) (.ok (Core.v6Mask prefixLen)) :=
  settles_mask (UInt8.le_iff_toNat_le.mp fits)

/-- Reading a text never shifts too far, whatever prefix length is written there. -/
theorem settles_fromStr (value : Str) : Settles (fromStr value) (IpCidr.fromStr value) := by
  unfold fromStr IpCidr.fromStr
  cases splitOnce '/' value with
  | none => rfl
  | some parts =>
      obtain ⟨addressText, prefixText⟩ := parts
      refine (settles_ofExcept (.ok _)).step ?_
      dsimp only
      cases IpAddr.parse addressText with
      | none => rfl
      | some address =>
          refine (settles_ofExcept (.ok _)).step ?_
          dsimp only
          cases parseUnsigned 255 prefixText with
          | none => rfl
          | some number =>
              refine (settles_ofExcept (.ok _)).step ?_
              cases address with
              | v4 x =>
                  dsimp only
                  split
                  · rename_i fits
                    exact (settles_v4Mask fits).step (settles_pure _)
                  · exact settles_ofExcept _
              | v6 x =>
                  dsimp only
                  split
                  · rename_i fits
                    exact (settles_v6Mask fits).step (settles_pure _)
                  · exact settles_ofExcept _

theorem settles_contains (fits : p ≤ width a) (b : IpAddr) :
    Settles (contains (stored a p) b) (.ok ((stored a p).contains b)) := by
  have number := toNat_prefixLen (Nat.lt_of_le_of_lt fits (width_lt a))
  cases a with
  | v4 x =>
      cases b with
      | v4 y =>
          have narrow : UInt8.ofNat p ≤ 32 := by
            rw [UInt8.le_iff_toNat_le, number]
            exact fits
          exact (settles_v4Mask narrow).step (settles_pure _)
      | v6 y => exact settles_pure _
  | v6 x =>
      cases b with
      | v4 y => exact settles_pure _
      | v6 y =>
          have narrow : UInt8.ofNat p ≤ 128 := by
            rw [UInt8.le_iff_toNat_le, number]
            exact fits
          exact (settles_v6Mask narrow).step (settles_pure _)

end Access

/-- A text that is accepted gives an address and a prefix length, and what it is parsed to contains
exactly the addresses of the same family with the same first bits: the address itself, with an empty
prefix the whole family, and never more than a shorter prefix. Two texts are parsed to the same
network if they agree in family, prefix length and first bits, and only then. No difference and no
shift leaves its word on the way. -/
theorem membership :
    (∀ text cidr, fromStr text = .ok cidr → ∃ a p, Written text a p) ∧
    ∀ text a p, Written text a p → ∃ cidr, fromStr text = .ok cidr ∧
      (∀ b, cidr.contains b = true ↔ b.isIpv6 = a.isIpv6 ∧ (bits b).take p = (bits a).take p) ∧
      cidr.contains a = true ∧
      (∀ text' a' p', Written text' a' p' →
        (fromStr text' = .ok cidr ↔ a'.isIpv6 = a.isIpv6 ∧ p' = p ∧
          (bits a').take p = (bits a).take p)) ∧
      (∀ text' q, Written text' a q → q ≤ p →
        ∃ wider, fromStr text' = .ok wider ∧ ∀ b, cidr.contains b = true →
          wider.contains b = true) ∧
      (p = 0 → ∀ b, b.isIpv6 = a.isIpv6 → cidr.contains b = true) ∧
      Checked.Settles (Access.fromStr text) (.ok cidr) ∧
      ∀ b, Checked.Settles (Access.contains cidr b) (.ok (cidr.contains b)) := by
  refine ⟨fun text cidr read => ?_, fun text a p written => ?_⟩
  · obtain ⟨a, p, written, -⟩ := fromStr_eq_ok_iff.mp read
    exact ⟨a, p, written⟩
  have fits := written.fits
  have read : ∀ {text' : Str} {a' : IpAddr} {p' : Nat}, Written text' a' p' →
      fromStr text' = .ok (stored a' p') :=
    fun written' => fromStr_eq_ok_iff.mpr ⟨_, _, written', rfl⟩
  refine ⟨stored a p, read written, fun b => contains_stored fits, ?_, ?_, ?_, ?_, ?_,
    Access.settles_contains fits⟩
  · exact (contains_stored fits).mpr (mem_network_self a p)
  · intro text' a' p' written'
    rw [read written', Except.ok.injEq, stored_eq_iff fits written'.fits]
    exact and_left_comm
  · intro text' q written' shorter
    refine ⟨stored a q, read written', fun b inside => ?_⟩
    exact (contains_stored written'.fits).mpr
      (network_antitone shorter a ((contains_stored fits).mp inside))
  · rintro rfl b family
    rw [contains_stored fits, network_zero]
    exact family
  · rw [← read written]
    exact Access.settles_fromStr text

theorem membership_example : ∃ cidr, fromStr "10.42.99.7/16".toList = .ok cidr ∧
    cidr.contains (.v4 ⟨10, 42, 0, 1⟩) = true ∧ cidr.contains (.v4 ⟨10, 43, 0, 1⟩) = false := by
  obtain ⟨-, networks⟩ := membership
  have written : Written "10.42.99.7/16".toList (.v4 ⟨10, 42, 99, 7⟩) 16 :=
    @Written.intro _ _ _ "10.42.99.7".toList "16".toList rfl (by simp) (by decide +kernel)
      (by decide +kernel) (by decide)
  obtain ⟨cidr, read, contains_iff, -⟩ := networks _ _ _ written
  refine ⟨cidr, read, (contains_iff _).mpr (by decide +kernel),
    Bool.eq_false_iff.mpr fun inside => ?_⟩
  have other := (contains_iff _).mp inside
  revert other
  decide +kernel

end IpCidr

end Commeatus.Core
