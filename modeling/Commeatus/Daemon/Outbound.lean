import Commeatus.Daemon.Datagram

/-!
The outbound registry (`daemon/src/outbound.rs`): what an endpoint can do, and
the execution object that is opened for it.
-/

namespace Commeatus.Daemon

open Commeatus.Lib Commeatus.Core

structure ProtocolCapabilities where
  streamConnect : Bool
  requiresTls : Bool

structure TransportCapabilities where
  reliableStream : Bool
  datagram : Bool
  encrypted : Bool

/-- `datagram` is the endpoint's provider of datagram executions, if it has one. -/
structure ProxyEndpointConfig (π : Type) where
  id : EndpointId
  protocol : ProtocolCapabilities
  datagram : Option π
  transport : TransportCapabilities

structure EndpointCapabilities where
  tcp : Bool
  udp : Bool
  encryptedTransport : Bool

def EndpointCapabilities.supportsUdp (c : EndpointCapabilities) : Bool := c.udp

structure OutboundRegistry (π : Type) where
  endpoints : Map EndpointId (ProxyEndpointConfig π)

namespace OutboundRegistry

variable {π : Type} (registry : OutboundRegistry π)

def capabilities : Endpoint → Option EndpointCapabilities
  | .direct => some ⟨true, true, false⟩
  | .proxy id =>
      (registry.endpoints.lookup id).map fun config =>
        { tcp := config.protocol.streamConnect && config.transport.reliableStream
          udp := config.datagram.isSome
          encryptedTransport := config.transport.encrypted }

end OutboundRegistry

/-- An execution object: the DIRECT association, or what the provider of a proxy endpoint opened. -/
inductive Opened (δ ρ : Type) where
  | direct (association : δ)
  | provided (id : EndpointId) (execution : ρ)

/-- The code behind the trait objects: DIRECT associations and the providers' executions. -/
structure DatagramProviders (δ π ρ ω : Type) where
  direct : DatagramExecution δ ω
  openDirect : Run ω δ
  provided : DatagramExecution ρ ω
  openProvided : π → Run ω ρ

namespace DatagramProviders

variable {δ π ρ ω : Type} (providers : DatagramProviders δ π ρ ω)

/-- A method call on an execution object goes to the object's own implementation. -/
def execution : DatagramExecution (Opened δ ρ) ω where
  readinessSourceCount
    | .direct association => providers.direct.readinessSourceCount association
    | .provided _ object => providers.provided.readinessSourceCount object
  registerReadiness tokens
    | (.direct association, world) =>
        let out := providers.direct.registerReadiness tokens (association, world)
        (out.1, (.direct out.2.1, out.2.2))
    | (.provided id object, world) =>
        let out := providers.provided.registerReadiness tokens (object, world)
        (out.1, (.provided id out.2.1, out.2.2))
  send target payload
    | (.direct association, world) =>
        (providers.direct.send target payload (association, world)).map fun out =>
          (out.1, (.direct out.2.1, out.2.2))
    | (.provided id object, world) =>
        (providers.provided.send target payload (object, world)).map fun out =>
          (out.1, (.provided id out.2.1, out.2.2))
  receive limit
    | (.direct association, world) =>
        (providers.direct.receive limit (association, world)).map fun out =>
          (out.1, (.direct out.2.1, out.2.2))
    | (.provided id object, world) =>
        (providers.provided.receive limit (object, world)).map fun out =>
          (out.1, (.provided id out.2.1, out.2.2))

/-- `open_datagram`: DIRECT is opened for DIRECT only, and a proxy endpoint by its own provider. -/
def openDatagram (registry : OutboundRegistry π) : Endpoint → Run ω (Opened δ ρ)
  | .direct => do
      let association ← providers.openDirect
      pure (.direct association)
  | .proxy id =>
      match registry.endpoints.lookup id with
      | none =>
          Run.fail ⟨.notFound, "proxy endpoint `" ++ String.ofList id.value ++
            "` is not registered"⟩
      | some config =>
          match config.datagram with
          | none =>
              Run.fail ⟨.unsupported,
                "proxy endpoint `" ++ String.ofList id.value ++
                  "` has no datagram execution provider"⟩
          | some provider => do
              let object ← providers.openProvided provider
              pure (.provided id object)

end DatagramProviders

/-- What the inbound executors use of the registry. -/
structure Outbounds (ε ω : Type) where
  capabilities : Endpoint → Option EndpointCapabilities
  openDatagram : Endpoint → Run ω ε
  execution : DatagramExecution ε ω

def OutboundRegistry.outbounds {δ π ρ ω : Type} (registry : OutboundRegistry π)
    (providers : DatagramProviders δ π ρ ω) : Outbounds (Opened δ ρ) ω where
  capabilities := registry.capabilities
  openDatagram := providers.openDatagram registry
  execution := providers.execution

/-- The endpoint an inbound datagram is sent to: the one its plan names, if that endpoint carries
UDP. -/
def Outbounds.select {ε ω : Type} (outbounds : Outbounds ε ω) (runtime : Runtime) (target : Target)
    (id : FlowId) : Option Endpoint :=
  match planAction runtime target .udp id with
  | .reject _ => none
  | .route endpoint =>
      if (outbounds.capabilities endpoint).any EndpointCapabilities.supportsUdp then some endpoint
      else none

/-! ### A registry with one endpoint -/

/-- Execution objects that take every datagram; `received` is what a receive gives. -/
def DatagramProviders.scripted {ω : Type} (received : Except IoError (Option ReceivedDatagram)) :
    DatagramProviders Unit Unit Unit ω where
  direct := ⟨fun _ => 1, fun _ => pure (), fun _ _ => pure (), fun _ s => some (received, s)⟩
  openDirect := pure ()
  provided := ⟨fun _ => 1, fun _ => pure (), fun _ _ => pure (), fun _ s => some (received, s)⟩
  openProvided _ := pure ()

/-- A registry with one proxy endpoint, which carries datagrams. -/
def OutboundRegistry.single (id : EndpointId) : OutboundRegistry Unit :=
  ⟨(∅ : Map EndpointId (ProxyEndpointConfig Unit)).insert id
    ⟨id, ⟨true, true⟩, some (), ⟨true, false, true⟩⟩⟩

def proxyOne : EndpointId := ⟨"one".toList, by decide⟩

def proxied : Runtime :=
  ⟨.new [⟨1, .userHard, .ip (.v4 ⟨1, 2, 3, 4⟩), .route (.proxy proxyOne)⟩] (.route .direct)⟩

end Commeatus.Daemon
