import Commeatus.Lib.Net

/-!
The flow and plan vocabulary of the policy core (`core/src/flow.rs`,
`core/src/plan.rs`). A destination is either a name or an address and keeps
that identity until execution; actions are separate from endpoints.
-/

namespace Commeatus.Core

open Commeatus.Lib

abbrev FlowId := UInt64

abbrev RuleId := UInt64

/-- Identity metadata supplied by the platform layer. -/
structure SourceContext where
  uid : Option UInt32 := none
  package : Option Str := none
  deriving DecidableEq

/-- Destination identity, kept separate from DNS resolution state. -/
inductive DestinationHost where
  | domain (name : Str)
  | ip (address : IpAddr)
  deriving DecidableEq

structure Destination where
  host : DestinationHost
  port : UInt16
  deriving DecidableEq

inductive TransportProtocol where
  | tcp | udp
  deriving DecidableEq, Repr

inductive NetworkKind where
  | unknown | ethernet | wifi | cellular
  deriving DecidableEq, Repr

structure NetworkContext where
  kind : NetworkKind := .unknown
  interface : Option Str := none
  deriving DecidableEq

structure FlowContext where
  id : FlowId
  source : SourceContext
  destination : Destination
  transport : TransportProtocol
  network : NetworkContext
  deriving DecidableEq

/-- The otherwise equal flow to another host. -/
def FlowContext.withHost (flow : FlowContext) (host : DestinationHost) : FlowContext :=
  { flow with destination := { flow.destination with host } }

/-! ### Endpoints and actions -/

def maxEndpointIdLength : Nat := 64

/-- The check of `EndpointId::new`: 1 to 64 ASCII alphanumeric, `-`, `_` or `.` characters. -/
def validEndpointId (value : Str) : Bool :=
  !value.isEmpty && decide (byteLen value ≤ maxEndpointIdLength) &&
    value.all fun c => c.isAlphanum || c == '-' || c == '_' || c == '.'

/-- Stable identity of an execution endpoint. -/
structure EndpointId where
  value : Str
  valid : validEndpointId value = true
  deriving DecidableEq

/-- Endpoints are told apart by the text of their ids. -/
theorem EndpointId.value_injective : Function.Injective EndpointId.value := by
  rintro ⟨value, valid⟩ ⟨value', valid'⟩ same
  cases same
  rfl

/-- A concrete egress target. -/
inductive Endpoint where
  | direct
  | proxy (id : EndpointId)
  deriving DecidableEq

inductive RejectReason where
  | policy | security | unsupported
  deriving DecidableEq, Repr

inductive ExecutionAction where
  | route (endpoint : Endpoint)
  | reject (reason : RejectReason)
  deriving DecidableEq

end Commeatus.Core
