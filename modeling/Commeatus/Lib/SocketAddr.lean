import Commeatus.Lib.Net

/-!
Socket addresses as text.

An address in brackets is IPv6 and may have a scope id behind a percent sign;
ports and scope ids may have leading zeros.
-/

namespace Commeatus.Lib

/-- A socket address with its scope id, which is zero for IPv4. -/
structure ScopedAddr where
  ip : IpAddr
  port : UInt16
  scopeId : UInt32 := 0
  deriving DecidableEq

namespace ScopedAddr

def readPort (s : Str) : Option (UInt16 × Str) := do
  let s ← readGivenChar ':' s
  let (port, s) ← readNumber 10 s.length 65535 true s
  return (UInt16.ofNat port, s)

def readScopeId (s : Str) : Option (UInt32 × Str) := do
  let s ← readGivenChar '%' s
  let (scopeId, s) ← readNumber 10 s.length 4294967295 true s
  return (UInt32.ofNat scopeId, s)

def readV4 (s : Str) : Option (ScopedAddr × Str) := do
  let (ip, s) ← readIpv4 s
  let (port, s) ← readPort s
  return (⟨.v4 ip, port, 0⟩, s)

/-- A scope id that cannot be read is none, and the bracket is then missing. -/
def readV6 (s : Str) : Option (ScopedAddr × Str) := do
  let s ← readGivenChar '[' s
  let (ip, s) ← readIpv6 s
  let (scopeId, s) := (readScopeId s).getD (0, s)
  let s ← readGivenChar ']' s
  let (port, s) ← readPort s
  return (⟨.v6 ip, port, scopeId⟩, s)

/-- `SocketAddr::from_str`. -/
def parse (s : Str) : Option ScopedAddr :=
  match (readV4 s).or (readV6 s) with
  | some (address, rest) => if rest.isEmpty then some address else none
  | none => none

def display (x : ScopedAddr) : Str :=
  match x.ip with
  | .v4 ip => ip.display ++ ':' :: decimal x.port.toNat
  | .v6 ip =>
      let scope := if x.scopeId = 0 then [] else '%' :: decimal x.scopeId.toNat
      '[' :: ip.display ++ scope ++ ']' :: ':' :: decimal x.port.toNat

example : parse "127.0.0.1:0080".toList = some ⟨.v4 ⟨127, 0, 0, 1⟩, 80, 0⟩ := by decide

end ScopedAddr

/-- `is_loopback`: `127.0.0.0/8` and `::1`. -/
def IpAddr.isLoopback : IpAddr → Bool
  | .v4 x => x.a == 127
  | .v6 x => x == .ofSegments [0, 0, 0, 0, 0, 0, 0, 1]

end Commeatus.Lib
