import Commeatus.Lib.Net

/-!
IP networks (`core/src/cidr.rs`). The network is stored already masked, and a
prefix length of zero has the zero mask, since a shift by the full width is not
defined on the machine words.
-/

namespace Commeatus.Core

open Commeatus.Lib

inductive IpCidr where
  | v4 (network : BitVec 32) (prefixLen : UInt8)
  | v6 (network : BitVec 128) (prefixLen : UInt8)
  deriving DecidableEq

inductive CidrParseError where
  | missingPrefix | invalidAddress | invalidPrefix | prefixOutOfRange
  deriving DecidableEq, Repr

def CidrParseError.message : CidrParseError → String
  | .missingPrefix => "CIDR prefix is required"
  | .invalidAddress => "invalid CIDR address"
  | .invalidPrefix => "invalid CIDR prefix"
  | .prefixOutOfRange => "CIDR prefix is out of range"

/-- `u32::from(Ipv4Addr)`: the octets in network order. -/
def v4Bits (x : Ipv4Addr) : BitVec 32 :=
  BitVec.ofNat 32 (x.octets.foldl (fun acc b => acc * 256 + b.toNat) 0)

/-- `u128::from(Ipv6Addr)`: the segments in network order. -/
def v6Bits (x : Ipv6Addr) : BitVec 128 :=
  BitVec.ofNat 128 (x.segments.foldl (fun acc g => acc * 65536 + g.toNat) 0)

def v4Mask (prefixLen : UInt8) : BitVec 32 :=
  if prefixLen = 0 then 0 else BitVec.allOnes 32 <<< (32 - prefixLen.toNat)

def v6Mask (prefixLen : UInt8) : BitVec 128 :=
  if prefixLen = 0 then 0 else BitVec.allOnes 128 <<< (128 - prefixLen.toNat)

def IpCidr.contains : IpCidr → IpAddr → Bool
  | .v4 network prefixLen, .v4 address => v4Bits address &&& v4Mask prefixLen == network
  | .v6 network prefixLen, .v6 address => v6Bits address &&& v6Mask prefixLen == network
  | _, _ => false

def IpCidr.fromStr (value : Str) : Except CidrParseError IpCidr :=
  match splitOnce '/' value with
  | none => .error .missingPrefix
  | some (addressText, prefixText) =>
      match IpAddr.parse addressText with
      | none => .error .invalidAddress
      | some address =>
          match parseUnsigned 255 prefixText with
          | none => .error .invalidPrefix
          | some p =>
              let prefixLen := UInt8.ofNat p
              match address with
              | .v4 address =>
                  if prefixLen ≤ 32 then .ok (.v4 (v4Bits address &&& v4Mask prefixLen) prefixLen)
                  else .error .prefixOutOfRange
              | .v6 address =>
                  if prefixLen ≤ 128 then .ok (.v6 (v6Bits address &&& v6Mask prefixLen) prefixLen)
                  else .error .prefixOutOfRange

end Commeatus.Core
