import Commeatus.Daemon.Outbound
import Commeatus.Daemon.Trojan
import Commeatus.Lib.Fallible
import Commeatus.Lib.SocketAddr

/-!
The endpoints of a configuration and the registry that is built of them
(`daemon/src/outbound.rs`, `daemon/src/protocol.rs`).

The executors see of an endpoint what it can do; `Registry.outbound` is that
view of a registry.
-/

namespace Commeatus.Daemon

open Commeatus.Lib Commeatus.Core
open Trojan (TrojanVerifier)

variable {η : Type}

/-- A TLS carrier. `η` is the type of server names that were found valid. -/
structure TlsTransport (η : Type) where
  address : ScopedAddr
  serverName : η
  deriving DecidableEq

inductive TransportConfig (η : Type) where
  | tcp (address : ScopedAddr)
  | tls (transport : TlsTransport η)

namespace TransportConfig

def capabilities : TransportConfig η → TransportCapabilities
  | .tcp _ => { reliableStream := true, datagram := false, encrypted := false }
  | .tls _ => { reliableStream := true, datagram := false, encrypted := true }

def isTls : TransportConfig η → Bool
  | .tcp _ => false
  | .tls _ => true

end TransportConfig

inductive OutboundProtocol where
  | socks5
  | httpConnect
  | trojan (verifier : TrojanVerifier)

namespace OutboundProtocol

def name : OutboundProtocol → String
  | .socks5 => "socks5"
  | .httpConnect => "http-connect"
  | .trojan _ => "trojan"

def capabilities : OutboundProtocol → ProtocolCapabilities
  | .socks5 => { streamConnect := true, requiresTls := false }
  | .httpConnect => { streamConnect := true, requiresTls := false }
  | .trojan _ => { streamConnect := true, requiresTls := true }

end OutboundProtocol

structure TrojanDatagramProvider (η : Type) where
  verifier : TrojanVerifier
  transport : TlsTransport η

/-- `ProxyEndpointConfig`, with the protocol and the carrier themselves. -/
structure EndpointConfig (η : Type) where
  id : EndpointId
  protocol : OutboundProtocol
  datagram : Option (TrojanDatagramProvider η)
  transport : TransportConfig η

/-- What the executors see of an endpoint. -/
def EndpointConfig.outbound (config : EndpointConfig η) :
    ProxyEndpointConfig (TrojanDatagramProvider η) where
  id := config.id
  protocol := config.protocol.capabilities
  datagram := config.datagram
  transport := config.transport.capabilities

structure Registry (η : Type) where
  endpoints : Map EndpointId (EndpointConfig η) := ∅

namespace Registry

/-- One round of the loop of `OutboundRegistry::new`. -/
def add (registry : Registry η) (endpoint : EndpointConfig η) : Except IoError (Registry η) := do
  refuse (endpoint.protocol.capabilities.requiresTls = true ∧ endpoint.transport.isTls = false)
    ⟨.invalidInput, endpoint.protocol.name ++ " endpoint `" ++ String.ofList endpoint.id.value ++
      "` requires a TLS transport"⟩
  refuse ((registry.endpoints.lookup endpoint.id).isSome = true)
    ⟨.invalidInput, "duplicate outbound endpoint `" ++ String.ofList endpoint.id.value ++ "`"⟩
  return ⟨registry.endpoints.insert endpoint.id endpoint⟩

/-- `OutboundRegistry::new`. -/
def new (endpoints : List (EndpointConfig η)) : Except IoError (Registry η) :=
  endpoints.foldlM add {}

def len (registry : Registry η) : Nat := registry.endpoints.size

def contains (registry : Registry η) (id : EndpointId) : Bool :=
  (registry.endpoints.lookup id).isSome

/-- The registry as the executors see it. -/
def outbound (registry : Registry η) : OutboundRegistry (TrojanDatagramProvider η) :=
  ⟨registry.endpoints.mapValues EndpointConfig.outbound⟩

/-- `OutboundRegistry::capabilities`. -/
def capabilities (registry : Registry η) (endpoint : Endpoint) : Option EndpointCapabilities :=
  registry.outbound.capabilities endpoint

variable {registry registry' : Registry η} {config : EndpointConfig η}
    {configs : List (EndpointConfig η)}

/-- An endpoint that was added is new, and has the carrier that its protocol requires. -/
theorem add_eq_ok (added : registry.add config = .ok registry') :
    registry'.endpoints.entries = ⟨config.id, config⟩ :: registry.endpoints.entries ∧
      (config.protocol.capabilities.requiresTls = true → config.transport.isTls = true) := by
  obtain ⟨carried, added⟩ := refuse_bind_eq_ok_iff.mp added
  obtain ⟨fresh, added⟩ := refuse_bind_eq_ok_iff.mp added
  cases added
  constructor
  · exact AList.entries_insert_of_notMem fun present => fresh (AList.lookup_isSome.mpr present)
  · intro required
    simpa [required] using carried

/-- The registry holds the endpoints it was made of and no others. -/
theorem new_entries (made : Registry.new configs = .ok registry) :
    registry.endpoints.entries.reverse = configs.map fun config => ⟨config.id, config⟩ := by
  have appends : ∀ {config : EndpointConfig η} {registry registry' : Registry η},
    registry.add config = .ok registry' →
      registry'.endpoints.entries.reverse = registry.endpoints.entries.reverse ++
          [⟨config.id, config⟩] := by
    intro config registry registry' added
    rw [(add_eq_ok added).1, List.reverse_cons]
  exact (sweep_of_foldlM made).appended
    (fun registry => registry.endpoints.entries.reverse) _ appends

theorem lookup_new (made : Registry.new configs = .ok registry) {id : EndpointId} :
    registry.endpoints.lookup id = some config ↔ config ∈ configs ∧ config.id = id := by
  rw [← Map.mem_entries_iff, ← List.mem_reverse, new_entries made, List.mem_map]
  constructor
  · rintro ⟨config, member, same⟩
    cases same
    exact ⟨member, rfl⟩
  · rintro ⟨member, rfl⟩
    exact ⟨config, member, rfl⟩

/-- No two endpoints of a registry have the same id. -/
theorem nodup_new (made : Registry.new configs = .ok registry) :
    (configs.map EndpointConfig.id).Nodup := by
  have keys : registry.endpoints.entries.reverse.keys.Nodup := by
    rw [List.keys, List.map_reverse, List.nodup_reverse]
    exact registry.endpoints.nodupKeys
  rw [new_entries made, List.keys, List.map_map] at keys
  exact keys

/-- Every endpoint whose protocol requires TLS has a TLS carrier. -/
def Secured (registry : Registry η) : Prop :=
  ∀ entry ∈ registry.endpoints.entries, entry.2.protocol.capabilities.requiresTls = true →
    entry.2.transport.isTls = true

theorem add_secured (added : registry.add config = .ok registry') (secured : registry.Secured) :
    registry'.Secured := by
  intro entry member required
  rw [(add_eq_ok added).1] at member
  rcases List.mem_cons.mp member with rfl | earlier
  · exact (add_eq_ok added).2 required
  · exact secured entry earlier required

theorem secured_new (made : Registry.new configs = .ok registry) : registry.Secured :=
  (sweep_of_foldlM made).preserves add_secured fun _ no => nomatch no

end Registry

end Commeatus.Daemon
