import Commeatus.Lib.Io
import Commeatus.Core.Policy

/-!
The destination of one client request and its policy plan
(`daemon/src/proxy.rs`).
-/

namespace Commeatus.Daemon

open Commeatus.Lib Commeatus.Core

/-- A destination. `Target::new` refuses port 0, and no other place builds one. -/
structure Target where
  host : DestinationHost
  port : UInt16
  port_ne_zero : port ≠ 0
  deriving DecidableEq

theorem httpPort_ne_zero : (80 : UInt16) ≠ 0 := by decide

theorem dnsPort_ne_zero : (53 : UInt16) ≠ 0 := by decide

def Target.new (host : DestinationHost) (port : UInt16) : Except IoError Target :=
  if h : port = 0 then .error ⟨.invalidInput, "destination port must not be zero"⟩
  else .ok ⟨host, port, h⟩

/-- `Target::flow`. The id is the next value of a process-wide counter. -/
def Target.flow (target : Target) (id : FlowId) (transport : TransportProtocol) : FlowContext :=
  ⟨id, {}, ⟨target.host, target.port⟩, transport, {}⟩

/-- `plan_action`, for the flow id the counter gives. -/
def planAction (runtime : Runtime) (target : Target) (transport : TransportProtocol) (id : FlowId) :
    ExecutionAction :=
  (runtime.plan (target.flow id transport)).action

theorem Target.new_eq_ok {host : DestinationHost} {port : UInt16} {t : Target}
    (h : Target.new host port = .ok t) : t.host = host ∧ t.port = port := by
  unfold Target.new at h
  split at h
  · cases h
  · cases h
    exact ⟨rfl, rfl⟩

@[simp] theorem Target.new_self (t : Target) : Target.new t.host t.port = .ok t := by
  simp [Target.new, t.port_ne_zero]

/-- A plan is made for the destination alone: the flow id plays no part. -/
theorem planAction_congr {runtime : Runtime} {s t : Target} (host : s.host = t.host)
    (port : s.port = t.port) (transport : TransportProtocol) (id id' : FlowId) :
    planAction runtime s transport id = planAction runtime t transport id' := by
  have flows : s.flow id transport = { t.flow id' transport with id } := by
    simp [Target.flow, host, port]
  rw [planAction, flows, Runtime.plan_action_id]
  rfl

end Commeatus.Daemon
